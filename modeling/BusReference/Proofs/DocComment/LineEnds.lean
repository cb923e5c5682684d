import BusReference.Proofs.DocComment.Summaries
import BusReference.Proofs.Text.Removing

/-!
# Line ends of doc comments

A doc comment may have been written with a carriage return before every line
feed.  The types in its tags are found among words and blanks, and both
characters are blank, so these readings stay as they are.  A summary takes the
line feeds alone for noise: the carriage return of a line stays in the text
unless a tag reaches up to it, and shows wherever the summary has text on both
sides of it.
-/

namespace BusReference.DocComment

open BusReference.Text.Blank
open BusReference.Text.Pieces (exists_append_of_not_mem)

/-- The text with a carriage return before every line feed. -/
def withReturns : List Char → List Char
  | [] => []
  | c :: cs => if c = '\n' then '\r' :: '\n' :: withReturns cs else c :: withReturns cs

section Texts

variable {c : Char} {cs : List Char}

theorem withReturns_newline (cs : List Char) :
    withReturns ('\n' :: cs) = '\r' :: '\n' :: withReturns cs := rfl

theorem withReturns_cons (other : c ≠ '\n') (cs : List Char) :
    withReturns (c :: cs) = c :: withReturns cs := by
  rw [withReturns, if_neg other]

theorem withReturns_append (cs ds : List Char) :
    withReturns (cs ++ ds) = withReturns cs ++ withReturns ds := by
  induction cs with
  | nil => rfl
  | cons c cs ih =>
      by_cases line : c = '\n'
      · subst line
        rw [List.cons_append, withReturns_newline, ih, withReturns_newline]
        rfl
      · rw [List.cons_append, withReturns_cons line, ih, withReturns_cons line]
        rfl

theorem withReturns_eq_self (line : '\n' ∉ cs) : withReturns cs = cs := by
  induction cs with
  | nil => rfl
  | cons c cs ih =>
      rw [List.mem_cons, not_or] at line
      rw [withReturns_cons (Ne.symm line.1), ih line.2]

/-- A statement about texts can be proved line by line. -/
@[elab_as_elim]
theorem lines_induction {motive : List Char → Prop}
    (last : ∀ line, '\n' ∉ line → motive line)
    (more : ∀ line rest, '\n' ∉ line → motive rest → motive (line ++ '\n' :: rest))
    (cs : List Char) : motive cs := by
  induction size : cs.length using Nat.strongRecOn generalizing cs with
  | _ size ih =>
  subst size
  by_cases lines : '\n' ∈ cs
  · obtain ⟨line, rest, rfl, first⟩ := List.eq_append_cons_of_mem lines
    apply more line rest first
    refine ih rest.length ?_ rest rfl
    rw [List.length_append, List.length_cons]
    omega
  · exact last cs lines

end Texts

/-! ## Tags -/

section Tags

variable {α : Type}

/-- Where nothing is read at a line feed, a reading that a place allows is found
wherever it stands. -/
theorem firstAt_withReturns
    {read : List Char → Option α}
    (agrees : ∀ cs, read (withReturns cs) = read cs)
    (nothing : ∀ cs, read ('\n' :: cs) = none)
    (cs : List Char) :
    firstAt read (withReturns cs) = firstAt read cs := by
  induction cs with
  | nil => rfl
  | cons c cs ih =>
      by_cases line : c = '\n'
      · subst line
        have first := agrees ('\n' :: cs)
        rw [withReturns_newline, nothing] at first
        rw [withReturns_newline, firstAt, first, firstAt, nothing, firstAt, nothing]
        exact ih
      · have first := agrees (c :: cs)
        rw [withReturns_cons line] at first
        rw [withReturns_cons line, firstAt, first, firstAt, ih]

theorem after?_withReturns
    {keyword : List Char} (line : '\n' ∉ keyword) (noReturn : '\r' ∉ keyword)
    (cs : List Char) :
    after? keyword (withReturns cs) = (after? keyword cs).map withReturns := by
  induction keyword generalizing cs with
  | nil => rfl
  | cons k keyword ih =>
      rw [List.mem_cons, not_or] at line noReturn
      cases cs with
      | nil => rfl
      | cons c cs =>
          by_cases isLine : c = '\n'
          · subst isLine
            rw [withReturns_newline, after?, if_neg noReturn.1, after?,
              if_neg line.1]
            rfl
          · rw [withReturns_cons isLine, after?, after?]
            split
            · exact ih line.2 noReturn.2 cs
            · rfl

theorem dropWhile_withReturns (cs : List Char) :
    (withReturns cs).dropWhile isBlank = withReturns (cs.dropWhile isBlank) := by
  induction cs with
  | nil => rfl
  | cons c cs ih =>
      by_cases line : c = '\n'
      · subst line
        exact ih
      · rw [withReturns_cons line, List.dropWhile_cons, List.dropWhile_cons]
        split
        · exact ih
        · rw [withReturns_cons line]

theorem takeWhile_withReturns (cs : List Char) :
    (withReturns cs).takeWhile (!isBlank ·) = cs.takeWhile (!isBlank ·) := by
  induction cs with
  | nil => rfl
  | cons c cs ih =>
      by_cases line : c = '\n'
      · subst line
        rfl
      · rw [withReturns_cons line, List.takeWhile_cons, List.takeWhile_cons, ih]

/-- A word has no line feed, so the line feeds are in what follows it. -/
theorem drop_withReturns (cs : List Char) :
    (withReturns cs).drop (cs.takeWhile (!isBlank ·)).length =
      withReturns (cs.drop (cs.takeWhile (!isBlank ·)).length) := by
  have line : '\n' ∉ cs.takeWhile (!isBlank ·) := by
    intro member
    cases List.mem_takeWhile_imp member
  obtain ⟨rest, text⟩ := List.takeWhile_prefix (!isBlank ·) (l := cs)
  generalize cs.takeWhile (!isBlank ·) = word at line text ⊢
  rw [← text, withReturns_append, withReturns_eq_self line, List.drop_left,
    List.drop_left]

theorem afterBlanks?_withReturns (cs : List Char) :
    afterBlanks? (withReturns cs) = (afterBlanks? cs).map withReturns := by
  cases cs with
  | nil => rfl
  | cons c cs =>
      by_cases line : c = '\n'
      · subst line
        show some ((withReturns cs).dropWhile isBlank) =
          some (withReturns (cs.dropWhile isBlank))
        rw [dropWhile_withReturns]
      · rw [withReturns_cons line, afterBlanks?, afterBlanks?, dropWhile_withReturns]
        split <;> rfl

theorem word?_withReturns (cs : List Char) :
    word? (withReturns cs) =
      (word? cs).map fun (word, rest) => (word, withReturns rest) := by
  simp only [word?, takeWhile_withReturns, drop_withReturns]
  split <;> rfl

theorem tagged?_withReturns
    {tag : List Char} (line : '\n' ∉ tag) (noReturn : '\r' ∉ tag) (cs : List Char) :
    tagged? tag (withReturns cs) =
      (tagged? tag cs).map fun (word, rest) => (word, withReturns rest) := by
  unfold tagged?
  rw [after?_withReturns line noReturn]
  cases after? tag cs with
  | none => rfl
  | some rest =>
      simp only [Option.map_some, afterBlanks?_withReturns]
      cases afterBlanks? rest with
      | none => rfl
      | some rest => exact word?_withReturns rest

/-- Where a text is over, it stays so, and else a blank stays a blank. -/
theorem withReturns_eq_cons (c : Char) (cs : List Char) :
    ∃ d ds, withReturns (c :: cs) = d :: ds ∧ isBlank d = isBlank c := by
  by_cases line : c = '\n'
  · subst line
    exact ⟨_, _, rfl, rfl⟩
  · exact ⟨c, withReturns cs, withReturns_cons line cs, rfl⟩

theorem returnTagAt?_withReturns (cs : List Char) :
    returnTagAt? (withReturns cs) = returnTagAt? cs := by
  unfold returnTagAt?
  rw [tagged?_withReturns (by decide) (by decide)]
  rcases tagged? "@return".toList cs with _ | ⟨type, rest⟩
  · rfl
  · cases rest with
    | nil => rfl
    | cons c rest =>
        obtain ⟨d, ds, text, -⟩ := withReturns_eq_cons c rest
        simp only [Option.map_some, text]

theorem paramTagAt?_withReturns
    {name : List Char} (line : '\n' ∉ name) (noReturn : '\r' ∉ name) (cs : List Char) :
    paramTagAt? name (withReturns cs) = paramTagAt? name cs := by
  have variableLine : '\n' ∉ '$' :: name := by simpa using line
  have variableReturn : '\r' ∉ '$' :: name := by simpa using noReturn
  unfold paramTagAt?
  rw [tagged?_withReturns (by decide) (by decide)]
  rcases tagged? "@param".toList cs with _ | ⟨type, rest⟩
  · rfl
  · simp only [Option.map_some, afterBlanks?_withReturns]
    cases afterBlanks? rest with
    | none => rfl
    | some rest =>
        simp only [Option.map_some, after?_withReturns variableLine variableReturn]
        rcases after? ('$' :: name) rest with _ | _ | ⟨c, rest⟩
        · rfl
        · rfl
        · obtain ⟨d, ds, text, same⟩ := withReturns_eq_cons c rest
          simp only [Option.map_some, text, same]

theorem returnTagAt?_newline (cs : List Char) : returnTagAt? ('\n' :: cs) = none := rfl

theorem paramTagAt?_newline (name cs : List Char) :
    paramTagAt? name ('\n' :: cs) = none := rfl

theorem returnTag?_withReturns (doc : String) :
    returnTag? (String.ofList (withReturns doc.toList)) = returnTag? doc := by
  rw [returnTag?, String.toList_ofList,
    firstAt_withReturns returnTagAt?_withReturns returnTagAt?_newline, returnTag?]

theorem paramTag?_withReturns
    {name : String} (line : '\n' ∉ name.toList) (noReturn : '\r' ∉ name.toList)
    (doc : String) :
    paramTag? (String.ofList (withReturns doc.toList)) name = paramTag? doc name := by
  rw [paramTag?, String.toList_ofList,
    firstAt_withReturns (paramTagAt?_withReturns line noReturn)
      (paramTagAt?_newline name.toList), paramTag?]

end Tags

/-! ## Noise -/

section Noise

variable {cs ds : List Char}

/-- A carriage return is no part of a tag. -/
theorem endsInTag_withReturns_iff (cs : List Char) :
    EndsInTag (withReturns cs) ↔ EndsInTag cs := by
  induction cs using lines_induction with
  | last line whole => rw [withReturns_eq_self whole]
  | more line rest whole ih =>
      rw [withReturns_append, withReturns_newline, endsInTag_append_newline_iff, ← ih,
        ← List.singleton_append, ← List.append_assoc]
      exact endsInTag_append_newline_iff _ _

theorem withReturns_append_newline (cs ds : List Char) :
    withReturns (cs ++ '\n' :: ds) = withReturns cs ++ ['\r'] ++ '\n' :: withReturns ds := by
  rw [withReturns_append, withReturns_newline, List.append_assoc]
  rfl

/-- On the line of a tag the carriage return is dropped with the tag. -/
theorem dropNoise_withReturns_of_endsInTag
    (ends : EndsInTag cs) (ds : List Char) :
    dropNoise (withReturns (cs ++ '\n' :: ds)) =
      dropNoise (withReturns cs) ++ dropNoise (withReturns ds) := by
  have line : '\n' ∉ ['\r'] := by decide
  rw [withReturns_append_newline, dropNoise_append_newline,
    dropNoise_append_of_endsInTag ((endsInTag_withReturns_iff cs).mpr ends) line]

/-- Elsewhere it is left. -/
theorem dropNoise_withReturns_of_not_endsInTag
    (apart : ¬ EndsInTag cs) (ds : List Char) :
    dropNoise (withReturns (cs ++ '\n' :: ds)) =
      dropNoise (withReturns cs) ++ '\r' :: dropNoise (withReturns ds) := by
  have later : ¬ EndsInTag (withReturns cs) :=
    fun ends => apart ((endsInTag_withReturns_iff cs).mp ends)
  have nothing : dropNoise [] = [] := by rw [dropNoise]
  rw [withReturns_append_newline, dropNoise_append_newline,
    dropNoise_append_return later, nothing, List.append_assoc]
  rfl

/-- But for carriage returns the same text is left. -/
theorem filter_dropNoise_withReturns (noReturn : '\r' ∉ cs) :
    (dropNoise (withReturns cs)).filter (· ≠ '\r') = dropNoise cs := by
  have same : ∀ ds, '\r' ∉ ds → (dropNoise ds).filter (· ≠ '\r') = dropNoise ds := by
    intro ds absent
    apply List.filter_eq_self.mpr
    intro c member
    rw [decide_eq_true_eq]
    rintro rfl
    exact absent ((dropNoise_sublist ds).subset member)
  induction cs using lines_induction with
  | last line whole => rw [withReturns_eq_self whole, same line noReturn]
  | more line rest whole ih =>
      rw [List.mem_append, List.mem_cons, not_or, not_or] at noReturn
      obtain ⟨first, -, later⟩ := noReturn
      rw [dropNoise_append_newline, ← ih later]
      by_cases ends : EndsInTag line
      · rw [dropNoise_withReturns_of_endsInTag ends, List.filter_append,
          withReturns_eq_self whole, same line first]
      · rw [dropNoise_withReturns_of_not_endsInTag ends, List.filter_append,
          withReturns_eq_self whole, same line first]
        rfl

theorem isBlank_dropNoise_withReturns_iff (noReturn : '\r' ∉ cs) :
    IsBlank (dropNoise (withReturns cs)) ↔ IsBlank (dropNoise cs) := by
  rw [← filter_dropNoise_withReturns noReturn]
  constructor
  · intro blank c member
    exact blank c (List.mem_filter.mp member).1
  · intro blank c member
    by_cases isReturn : c = '\r'
    · subst isReturn
      rfl
    · exact blank c (List.mem_filter.mpr ⟨member, decide_eq_true isReturn⟩)

/-- Every carriage return that is left comes from a line end. -/
theorem exists_of_dropNoise_withReturns
    (noReturn : '\r' ∉ cs) {before after : List Char}
    (text : dropNoise (withReturns cs) = before ++ '\r' :: after) :
    ∃ first second, cs = first ++ '\n' :: second ∧ ¬ EndsInTag first ∧
      dropNoise (withReturns first) = before ∧
      dropNoise (withReturns second) = after := by
  induction cs using lines_induction generalizing before with
  | last line whole =>
      rw [withReturns_eq_self whole] at text
      have member : '\r' ∈ dropNoise line := by
        rw [text]
        exact List.mem_append_right before List.mem_cons_self
      exact absurd ((dropNoise_sublist line).subset member) noReturn
  | more line rest whole ih =>
      rw [List.mem_append, List.mem_cons, not_or, not_or] at noReturn
      obtain ⟨absent, -, later⟩ := noReturn
      have clean : '\r' ∉ dropNoise (withReturns line) := by
        rw [withReturns_eq_self whole]
        exact fun member => absent ((dropNoise_sublist line).subset member)
      by_cases ends : EndsInTag line
      · rw [dropNoise_withReturns_of_endsInTag ends] at text
        obtain ⟨lead, rfl, inRest⟩ := exists_append_of_not_mem clean text
        obtain ⟨first, second, rfl, apart, left, right⟩ := ih later inRest
        refine ⟨line ++ '\n' :: first, second, by simp, ?_, ?_, right⟩
        · rwa [endsInTag_append_newline_iff]
        · rw [dropNoise_withReturns_of_endsInTag ends, left]
      · rw [dropNoise_withReturns_of_not_endsInTag ends] at text
        obtain ⟨lead, rfl, fromReturn⟩ := exists_append_of_not_mem clean text
        cases lead with
        | nil =>
            rw [List.nil_append, List.cons.injEq] at fromReturn
            exact ⟨line, rest, rfl, ends, (List.append_nil _).symm, fromReturn.2⟩
        | cons c lead =>
            rw [List.cons_append, List.cons.injEq] at fromReturn
            obtain ⟨rfl, inRest⟩ := fromReturn
            obtain ⟨first, second, rfl, apart, left, right⟩ := ih later inRest
            refine ⟨line ++ '\n' :: first, second, by simp, ?_, ?_, right⟩
            · rwa [endsInTag_append_newline_iff]
            · rw [dropNoise_withReturns_of_not_endsInTag ends, left]

end Noise

/-! ## Summaries -/

section Summaries

variable {cs : List Char}

/-- A line ends, outside of a tag, where there is text for the summary before and
after. -/
def BreaksSummary (doc : String) : Prop :=
  ∃ before after, doc.toList = before ++ '\n' :: after ∧ ¬ EndsInTag before ∧
    summary (String.ofList before) ≠ "" ∧ summary (String.ofList after) ≠ ""

theorem toList_summary (doc : String) :
    (summary doc).toList = joinSpaces (trim (dropNoise doc.toList)) := by
  rw [summary, String.toList_ofList, trim_joinSpaces]

/-- A comment without a summary has nothing but noise and blanks. -/
theorem summary_eq_empty_iff :
    summary (String.ofList cs) = "" ↔ IsBlank (dropNoise cs) := by
  rw [← String.toList_inj, toList_summary, String.toList_ofList]
  show joinSpaces _ = [] ↔ _
  rw [joinSpaces_eq_nil_iff, trim_eq_nil_iff]

/-- No line feed ever gets into a summary. -/
theorem newline_not_mem_summary (doc : String) : '\n' ∉ (summary doc).toList := by
  rw [toList_summary, mem_joinSpaces_iff]
  intro member
  obtain ⟨before, after, -, -, text⟩ := exists_trim (dropNoise doc.toList)
  apply newline_not_mem_dropNoise doc.toList
  rw [text]
  exact List.mem_append_left after (List.mem_append_right before member)

theorem return_mem_summary_iff {doc : String} (noReturn : '\r' ∉ doc.toList) :
    '\r' ∈ (summary (String.ofList (withReturns doc.toList))).toList ↔
      BreaksSummary doc := by
  rw [toList_summary, mem_joinSpaces_iff, String.toList_ofList, mem_trim_iff rfl]
  constructor
  · rintro ⟨before, after, text, visibleLeft, visibleRight⟩
    obtain ⟨first, second, cut, apart, rfl, rfl⟩ :=
      exists_of_dropNoise_withReturns noReturn text
    rw [cut, List.mem_append, List.mem_cons, not_or, not_or] at noReturn
    obtain ⟨noFirst, -, noSecond⟩ := noReturn
    rw [isBlank_dropNoise_withReturns_iff noFirst] at visibleLeft
    rw [isBlank_dropNoise_withReturns_iff noSecond] at visibleRight
    refine ⟨first, second, cut, apart, ?_, ?_⟩
    · rwa [Ne, summary_eq_empty_iff]
    · rwa [Ne, summary_eq_empty_iff]
  · rintro ⟨first, second, cut, apart, visibleLeft, visibleRight⟩
    rw [cut, List.mem_append, List.mem_cons, not_or, not_or] at noReturn
    obtain ⟨noFirst, -, noSecond⟩ := noReturn
    rw [Ne, summary_eq_empty_iff] at visibleLeft visibleRight
    refine ⟨dropNoise (withReturns first), dropNoise (withReturns second), ?_, ?_, ?_⟩
    · rw [cut, dropNoise_withReturns_of_not_endsInTag apart]
    · rwa [isBlank_dropNoise_withReturns_iff noFirst]
    · rwa [isBlank_dropNoise_withReturns_iff noSecond]

theorem summary_withReturns_eq_iff {doc : String} (noReturn : '\r' ∉ doc.toList) :
    summary (String.ofList (withReturns doc.toList)) = summary doc ↔
      ¬ BreaksSummary doc := by
  rw [← return_mem_summary_iff noReturn]
  constructor
  · intro same member
    rw [same, toList_summary, mem_joinSpaces_iff, mem_trim_iff rfl] at member
    obtain ⟨before, after, text, -⟩ := member
    apply noReturn
    apply (dropNoise_sublist doc.toList).subset
    rw [text]
    exact List.mem_append_right before List.mem_cons_self
  · intro absent
    rw [toList_summary, mem_joinSpaces_iff, String.toList_ofList] at absent
    apply String.toList_inj.mp
    rw [toList_summary, toList_summary, String.toList_ofList,
      ← filter_dropNoise_withReturns noReturn, trim_filter_ne rfl absent]

end Summaries

/--
A carriage return before every line feed changes no type in a tag, and changes the
summary exactly if a line ends, outside of a tag, inside of the summary's text.
The carriage returns of such lines are then in the summary, line feeds never are.
-/
theorem readings_withReturns (doc : String) (noReturn : '\r' ∉ doc.toList) :
    returnTag? (String.ofList (withReturns doc.toList)) = returnTag? doc ∧
      (∀ name : String, '\n' ∉ name.toList → '\r' ∉ name.toList →
        paramTag? (String.ofList (withReturns doc.toList)) name = paramTag? doc name) ∧
      (summary (String.ofList (withReturns doc.toList)) = summary doc ↔
        ¬ BreaksSummary doc) ∧
      ('\r' ∈ (summary (String.ofList (withReturns doc.toList))).toList ↔
        BreaksSummary doc) ∧
      '\n' ∉ (summary (String.ofList (withReturns doc.toList))).toList := by
  refine ⟨?returned, ?parameters, ?changed, ?shown, ?lines⟩
  case returned => exact returnTag?_withReturns doc
  case parameters =>
    exact fun name line returns => paramTag?_withReturns line returns doc
  case changed => exact summary_withReturns_eq_iff noReturn
  case shown => exact return_mem_summary_iff noReturn
  case lines => exact newline_not_mem_summary _

/-- A doc comment with a summary of two lines. -/
def twoLines : String := "/**\n * Gets tax\n * for editing\n */"

theorem breaksSummary_twoLines : BreaksSummary twoLines := by
  refine ⟨"/**\n * Gets tax".toList, " * for editing\n */".toList, rfl, ?_,
    by decide +kernel, by decide +kernel⟩
  rintro ⟨tag, ⟨word, line⟩, suffix⟩
  have member : '@' ∈ "/**\n * Gets tax".toList := suffix.subset List.mem_cons_self
  revert member
  decide

theorem readings_withReturns_twoLines :
    '\r' ∉ twoLines.toList ∧
      returnTag? (String.ofList (withReturns twoLines.toList)) = returnTag? twoLines ∧
      '\n' ∉ "tax".toList ∧ '\r' ∉ "tax".toList ∧
      paramTag? (String.ofList (withReturns twoLines.toList)) "tax" =
        paramTag? twoLines "tax" ∧
      '\r' ∈ (summary (String.ofList (withReturns twoLines.toList))).toList := by
  have noReturn : '\r' ∉ twoLines.toList := by decide
  have line : '\n' ∉ "tax".toList := by decide
  have returns : '\r' ∉ "tax".toList := by decide
  obtain ⟨returned, parameters, -, shown, -⟩ := readings_withReturns twoLines noReturn
  exact ⟨noReturn, returned, line, returns, parameters "tax" line returns,
    shown.mpr breaksSummary_twoLines⟩

/-- The carriage return of the first line changes this summary. -/
theorem summary_changes_withReturns :
    '\r' ∉ twoLines.toList ∧
      summary twoLines = "Gets tax for editing" ∧
      summary (String.ofList (withReturns twoLines.toList)) = "Gets tax\r for editing" ∧
      summary (String.ofList (withReturns twoLines.toList)) ≠ summary twoLines := by
  decide +kernel

end BusReference.DocComment
