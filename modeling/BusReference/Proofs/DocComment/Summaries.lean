import BusReference.Proofs.DocComment.Noise
import BusReference.Proofs.Text.Trimming

/-!
# Summaries of doc comments

Doc comments are usually written with a star in front of every line.  Each line
then holds a tag or some text, and the summary consists of the words of the
text.  The stars leave at least one space between the words of two lines, so no
two words run together, and the spaces around tags and empty lines are joined or
trimmed.
-/

namespace BusReference.DocComment

open BusReference.Text.Blank
open BusReference.Text.WordCharacter (isWord)
open BusReference.Php.Lexeme.Reading (runLength)

/-! ## Joined spaces -/

section Spaces

variable {c : Char} {cs ds : List Char}

theorem joinSpaces_cons (apart : c = ' ' → cs.head? ≠ some ' ') :
    joinSpaces (c :: cs) = c :: joinSpaces cs := by
  rw [joinSpaces]
  rintro rest rfl rfl
  exact apart rfl rfl

theorem mem_joinSpaces_iff : c ∈ joinSpaces cs ↔ c ∈ cs := by
  fun_induction joinSpaces cs with
  | case1 cs ih => simp [ih]
  | case2 d cs _ ih => rw [List.mem_cons, List.mem_cons, ih]
  | case3 => exact Iff.rfl

theorem isBlank_joinSpaces_iff : IsBlank (joinSpaces cs) ↔ IsBlank cs := by
  simp only [IsBlank, mem_joinSpaces_iff]

/-- Spaces are joined on both sides of a cut on their own, unless there are some
on both sides of it. -/
theorem joinSpaces_append
    (apart : cs.getLast? = some ' ' → ds.head? ≠ some ' ') :
    joinSpaces (cs ++ ds) = joinSpaces cs ++ joinSpaces ds := by
  fun_induction joinSpaces cs with
  | case1 cs ih =>
      rw [List.getLast?_cons_cons] at apart
      rw [List.cons_append, List.cons_append, joinSpaces, ← List.cons_append, ih apart]
  | case2 c cs single ih =>
      cases cs with
      | nil => exact joinSpaces_cons fun space => apart (congrArg some space)
      | cons d cs =>
          have next : c = ' ' → (d :: (cs ++ ds)).head? ≠ some ' ' := by
            rintro rfl second
            cases second
            exact single cs rfl rfl
          rw [List.getLast?_cons_cons] at apart
          rw [List.cons_append, List.cons_append, joinSpaces_cons next,
            ← List.cons_append, ih apart, List.cons_append]
  | case3 => rfl

theorem joinSpaces_cons_of_ne (other : c ≠ ' ') (cs : List Char) :
    joinSpaces (c :: cs) = c :: joinSpaces cs :=
  joinSpaces_cons fun space => absurd space other

theorem joinSpaces_eq_self (spaceless : ' ' ∉ cs) : joinSpaces cs = cs := by
  induction cs with
  | nil => rfl
  | cons c cs ih =>
      rw [List.mem_cons, not_or] at spaceless
      rw [joinSpaces_cons_of_ne (Ne.symm spaceless.1), ih spaceless.2]

theorem head?_joinSpaces (cs : List Char) : (joinSpaces cs).head? = cs.head? := by
  fun_induction joinSpaces cs with
  | case1 cs ih => exact ih
  | case2 c cs _ ih => rfl
  | case3 => rfl

theorem getLast?_joinSpaces (cs : List Char) :
    (joinSpaces cs).getLast? = cs.getLast? := by
  fun_induction joinSpaces cs with
  | case1 cs ih => rw [ih, List.getLast?_cons_cons]
  | case2 c cs _ ih => rw [List.getLast?_cons, ih, List.getLast?_cons]
  | case3 => rfl

theorem joinSpaces_eq_nil_iff : joinSpaces cs = [] ↔ cs = [] := by
  rw [← List.head?_eq_none_iff, head?_joinSpaces, List.head?_eq_none_iff]

/-- A trimmed text starts and ends without a space. -/
theorem ends_ne_space_of_trim_eq (trimmed : trim cs = cs) :
    cs.head? ≠ some ' ' ∧ cs.getLast? ≠ some ' ' := by
  obtain ⟨first, last⟩ := trim_eq_self_iff.mp trimmed
  constructor
  · intro space
    cases first _ space
  · intro space
    cases last _ space

/-- A text that is trimmed stays so when its spaces are joined. -/
theorem trim_joinSpaces_of_trim_eq (trimmed : trim cs = cs) :
    trim (joinSpaces cs) = joinSpaces cs := by
  rw [trim_eq_self_iff, head?_joinSpaces, getLast?_joinSpaces]
  exact trim_eq_self_iff.mp trimmed

/-- It makes no difference whether spaces are joined or blanks trimmed first. -/
theorem trim_joinSpaces (cs : List Char) :
    trim (joinSpaces cs) = joinSpaces (trim cs) := by
  obtain ⟨before, after, left, right, text⟩ := exists_trim cs
  have trimmed := trim_trim cs
  generalize middle : trim cs = ds at text trimmed ⊢
  cases ds with
  | nil =>
      rw [trim_eq_nil_iff] at middle
      exact trim_eq_nil_iff.mpr (isBlank_joinSpaces_iff.mpr middle)
  | cons d ds =>
      obtain ⟨first, last⟩ := ends_ne_space_of_trim_eq trimmed
      have cutAfter : (before ++ d :: ds).getLast? = some ' ' →
          after.head? ≠ some ' ' := by
        rw [List.getLast?_append_of_ne_nil before (List.cons_ne_nil d ds)]
        exact fun space => absurd space last
      calc trim (joinSpaces cs)
        _ = trim (joinSpaces before ++ joinSpaces (d :: ds) ++ joinSpaces after) := by
            rw [text, joinSpaces_append cutAfter, joinSpaces_append fun _ => first]
        _ = trim (joinSpaces before ++ joinSpaces (d :: ds)) :=
            trim_append_right (isBlank_joinSpaces_iff.mpr right) _
        _ = trim (joinSpaces (d :: ds)) :=
            trim_append_left (isBlank_joinSpaces_iff.mpr left) _
        _ = joinSpaces (d :: ds) := trim_joinSpaces_of_trim_eq trimmed

end Spaces

/-! ## Words -/

/-- The words of a text, which spaces separate. -/
def words (cs : List Char) : List (List Char) :=
  (cs.splitOn ' ').filter (· ≠ [])

section Words

variable {c : Char} {cs ds : List Char}

theorem words_append_space (cs ds : List Char) :
    words (cs ++ ' ' :: ds) = words cs ++ words ds := by
  rw [words, List.splitOn_append_cons_self, List.filter_append]
  rfl

theorem words_space (cs : List Char) : words (' ' :: cs) = words cs :=
  words_append_space [] cs

theorem words_of_not_mem (spaceless : ' ' ∉ cs) (filled : cs ≠ []) :
    words cs = [cs] := by
  rw [words, List.splitOn_eq_singleton spaceless]
  simp [filled]

/-- The text has no blanks but spaces. -/
def IsSpaced (cs : List Char) : Prop :=
  ∀ c ∈ cs, isBlank c = true → c = ' '

theorem isSpaced_append_iff : IsSpaced (cs ++ ds) ↔ IsSpaced cs ∧ IsSpaced ds :=
  List.forall_mem_append

theorem isSpaced_cons_iff :
    IsSpaced (c :: cs) ↔ (isBlank c = true → c = ' ') ∧ IsSpaced cs :=
  List.forall_mem_cons

/-- In a text without blanks there is nothing to trim and nothing to join. -/
theorem trim_eq_self_of_spaceless (spaced : IsSpaced cs) (spaceless : ' ' ∉ cs) :
    trim cs = cs := by
  have visible : ∀ c ∈ cs, isBlank c = false := by
    intro c member
    rw [← Bool.not_eq_true]
    intro blank
    rw [spaced c member blank] at member
    exact spaceless member
  apply trim_eq_self
  · exact fun c first => visible c (List.mem_of_mem_head? first)
  · exact fun c last => visible c (List.mem_of_getLast? last)

theorem words_of_isBlank (spaced : IsSpaced cs) (blank : IsBlank cs) :
    words cs = [] := by
  induction cs with
  | nil => rfl
  | cons c cs ih =>
      rw [isSpaced_cons_iff] at spaced
      rw [isBlank_cons_iff] at blank
      rw [spaced.1 blank.1, words_space]
      exact ih spaced.2 blank.2

theorem joinSpaces_spaces_append
    (spaces : ∀ d ∈ ds, d = ' ') (visible : c ≠ ' ') (cs : List Char) :
    joinSpaces (' ' :: (ds ++ c :: cs)) = ' ' :: joinSpaces (c :: cs) := by
  induction ds with
  | nil => exact joinSpaces_cons fun _ space => visible (Option.some.inj space)
  | cons d ds ih =>
      obtain ⟨rfl, later⟩ := List.forall_mem_cons.mp spaces
      rw [List.cons_append, joinSpaces, ih later]

/-- One space is left between a word and the visible text after it. -/
theorem joinSpaces_trim_word
    {word rest : List Char} (filled : word ≠ []) (spaceless : ' ' ∉ word)
    (spaced : IsSpaced (word ++ ' ' :: rest)) (visible : ¬ IsBlank rest) :
    joinSpaces (trim (word ++ ' ' :: rest)) = word ++ ' ' :: joinSpaces (trim rest) := by
  rw [isSpaced_append_iff, isSpaced_cons_iff] at spaced
  obtain ⟨before, after, left, right, text⟩ := exists_trim rest
  have trimmed := trim_trim rest
  cases middle : trim rest with
  | nil => exact absurd (trim_eq_nil_iff.mp middle) visible
  | cons c ds =>
      rw [middle] at text trimmed
      have spaces : ∀ d ∈ before, d = ' ' := fun d member =>
        spaced.2.2 d (by simp [text, member]) (left d member)
      have first : c ≠ ' ' := by
        rintro rfl
        exact (ends_ne_space_of_trim_eq trimmed).1 rfl
      have whole : trim (word ++ ' ' :: (before ++ c :: ds)) =
          word ++ ' ' :: (before ++ c :: ds) := by
        have alone := trim_eq_self_of_spaceless spaced.1 spaceless
        rw [trim_eq_self_iff] at alone trimmed ⊢
        constructor
        · rw [List.head?_append_of_ne_nil word filled]
          exact alone.1
        · rw [← List.cons_append, ← List.append_assoc,
            List.getLast?_append_of_ne_nil _ (List.cons_ne_nil c ds)]
          exact trimmed.2
      calc joinSpaces (trim (word ++ ' ' :: rest))
        _ = joinSpaces (trim (word ++ ' ' :: (before ++ c :: ds) ++ after)) := by
            rw [text]
            simp
        _ = joinSpaces (word ++ ' ' :: (before ++ c :: ds)) := by
            rw [trim_append_right right, whole]
        _ = joinSpaces word ++ joinSpaces (' ' :: (before ++ c :: ds)) := by
            apply joinSpaces_append
            exact fun space => absurd (List.mem_of_getLast? space) spaceless
        _ = word ++ ' ' :: joinSpaces (c :: ds) := by
            rw [joinSpaces_eq_self spaceless, joinSpaces_spaces_append spaces first]

/-- A text whose blanks are spaces is trimmed and joined to its words with single
spaces between them. -/
theorem joinSpaces_trim_eq_words (spaced : IsSpaced cs) :
    joinSpaces (trim cs) = [' '].intercalate (words cs) := by
  induction size : cs.length using Nat.strongRecOn generalizing cs with
  | _ size ih =>
  subst size
  by_cases space : ' ' ∈ cs
  · obtain ⟨word, rest, rfl, spaceless⟩ := List.eq_append_cons_of_mem space
    have parts := spaced
    rw [isSpaced_append_iff, isSpaced_cons_iff] at parts
    have later : joinSpaces (trim rest) = [' '].intercalate (words rest) := by
      refine ih rest.length ?_ parts.2.2 rfl
      rw [List.length_append, List.length_cons]
      omega
    rw [words_append_space]
    by_cases filled : word = []
    · subst filled
      show joinSpaces (trim ([' '] ++ rest)) = [' '].intercalate (words rest)
      rw [trim_append_left (List.forall_mem_singleton.mpr rfl), later]
    · rw [words_of_not_mem spaceless filled]
      by_cases blank : IsBlank rest
      · have around : IsBlank (' ' :: rest) := isBlank_cons_iff.mpr ⟨rfl, blank⟩
        rw [words_of_isBlank parts.2.2 blank, trim_append_right around,
          trim_eq_self_of_spaceless parts.1 spaceless, joinSpaces_eq_self spaceless,
          List.append_nil, List.intercalate_singleton]
      · have more : words rest ≠ [] := by
          intro none
          rw [none, List.intercalate_nil, joinSpaces_eq_nil_iff, trim_eq_nil_iff] at later
          exact blank later
        rw [joinSpaces_trim_word filled spaceless spaced blank, later,
          List.singleton_append, List.intercalate_cons_of_ne_nil more,
          List.append_assoc, List.singleton_append]
  · rw [trim_eq_self_of_spaceless spaced space, joinSpaces_eq_self space]
    by_cases filled : cs = []
    · subst filled
      rfl
    · rw [words_of_not_mem space filled, List.intercalate_singleton]

end Words

/-! ## Written comments -/

/-- A character of a text line: no mark of a comment or a tag, and no blank but a
space. -/
structure IsPlain (c : Char) : Prop where
  noStar : c ≠ '*'
  noAt : c ≠ '@'
  spaced : isBlank c = true → c = ' '

/-- What stands on a line of a doc comment. -/
inductive Line where
  /-- A tag, which starts with a letter, and the rest of its line. -/
  | tag (letter : { c : Char // c.isAlpha = true })
      (rest : { cs : List Char // '\n' ∉ cs })
  | text (cs : { cs : List Char // ∀ c ∈ cs, IsPlain c })

namespace Line

/-- The text of the line after its star and a space. -/
def content : Line → List Char
  | tag letter rest => '@' :: letter.1 :: rest.1
  | text cs => cs.1

/-- What the line adds to the summary. -/
def summaryText : Line → List Char
  | tag _ _ => []
  | text cs => cs.1

/-- The words of a line of text.  A tag has none. -/
def words (line : Line) : List String :=
  (DocComment.words line.summaryText).map String.ofList

/-- The whole line with its line break. -/
def written (line : Line) : List Char :=
  [' ', '*', ' '] ++ line.content ++ ['\n']

end Line

/-- A doc comment in the usual layout. -/
def written (lines : List Line) : String :=
  "/**\n" ++ String.ofList (lines.flatMap Line.written) ++ " */"

/-- A letter may start the name of a tag. -/
theorem isWord_of_isAlpha {c : Char} (letter : c.isAlpha = true) : isWord c = true := by
  have range : ('A' ≤ c ∧ c ≤ 'Z') ∨ ('a' ≤ c ∧ c ≤ 'z') := by
    rcases Bool.or_eq_true_iff.mp letter with upper | lower
    · exact .inl (of_decide_eq_true upper)
    · exact .inr ((Bool.and_eq_true_iff.mp lower).imp of_decide_eq_true of_decide_eq_true)
  have ascii : c.toNat < 0x80 := by
    rcases range with upper | lower
    · exact lt_of_le_of_lt (UInt32.le_iff_toNat_le.mp upper.2) (by decide)
    · exact lt_of_le_of_lt (UInt32.le_iff_toNat_le.mp lower.2) (by decide)
  rw [isWord, if_pos ascii]
  rcases range with upper | lower
  · simp [upper.1, upper.2]
  · simp [lower.1, lower.2]

theorem Line.isSpaced_summaryText (line : Line) : IsSpaced line.summaryText := by
  cases line with
  | tag letter rest => exact fun _ member => absurd member List.not_mem_nil
  | text cs => exact fun c member => (cs.2 c member).spaced

/-- The star of a line leaves the spaces around it. -/
theorem dropNoise_star (cs : List Char) :
    dropNoise ([' ', '*', ' '] ++ cs) = ' ' :: ' ' :: dropNoise cs := by
  have keeps : ∀ ds, dropNoise (' ' :: ds) = ' ' :: dropNoise ds :=
    dropNoise_cons (by decide) (by decide) (by decide) (by decide)
  have star : noiseLength '*' (' ' :: cs) = 1 := by
    simp [noiseLength_star, runLength]
  show dropNoise (' ' :: '*' :: ' ' :: cs) = _
  rw [keeps, dropNoise_of_noiseLength_succ star, List.drop_zero, keeps]

theorem Line.dropNoise_content (line : Line) :
    dropNoise line.content = line.summaryText := by
  cases line with
  | tag letter rest =>
      have isTag : IsTag ('@' :: letter.1 :: rest.1) :=
        .intro (isWord_of_isAlpha letter.2) rest.2
      calc dropNoise ([] ++ '@' :: letter.1 :: rest.1)
        _ = dropNoise [] := dropNoise_append_tag not_endsInTag_nil isTag
        _ = [] := by rw [dropNoise]
  | text cs =>
      apply dropNoise_eq_self
      intro c member
      have plain := cs.2 c member
      refine ⟨plain.noStar, plain.noAt, ?_⟩
      rintro rfl
      cases plain.spaced rfl

/-- What a line leaves: its text between two spaces. -/
def Line.kept (line : Line) : List Char :=
  ' ' :: (line.summaryText ++ [' '])

/-- The closing line leaves the space before its mark. -/
theorem dropNoise_closing : dropNoise [' ', '*', '/'] = [' '] := by decide +kernel

theorem dropNoise_lines (lines : List Line) :
    dropNoise (lines.flatMap Line.written ++ [' ', '*', '/']) =
      ' ' :: lines.flatMap Line.kept := by
  induction lines with
  | nil => exact dropNoise_closing
  | cons line lines ih =>
      have text : (line :: lines).flatMap Line.written ++ [' ', '*', '/'] =
          ([' ', '*', ' '] ++ line.content) ++
            '\n' :: (lines.flatMap Line.written ++ [' ', '*', '/']) := by
        simp [Line.written]
      rw [text, dropNoise_append_newline, dropNoise_star, line.dropNoise_content, ih]
      simp [Line.kept]

theorem dropNoise_written (lines : List Line) :
    dropNoise (written lines).toList = ' ' :: lines.flatMap Line.kept := by
  have text : (written lines).toList = ['/', '*', '*'] ++
      '\n' :: (lines.flatMap Line.written ++ [' ', '*', '/']) := by
    simp [written]
  have opening : dropNoise ['/', '*', '*'] = [] := by
    decide +kernel
  rw [text, dropNoise_append_newline, opening, dropNoise_lines]
  rfl

theorem isSpaced_kept (lines : List Line) :
    IsSpaced (' ' :: lines.flatMap Line.kept) := by
  rw [isSpaced_cons_iff]
  refine ⟨fun _ => rfl, ?_⟩
  intro c member
  obtain ⟨line, _, inside⟩ := List.mem_flatMap.mp member
  have around : IsSpaced line.kept := by
    rw [Line.kept, isSpaced_cons_iff, isSpaced_append_iff]
    exact ⟨fun _ => rfl, line.isSpaced_summaryText,
      List.forall_mem_singleton.mpr fun _ => rfl⟩
  exact around c inside

/-- The words of the lines are kept apart. -/
theorem words_kept (lines : List Line) :
    words (' ' :: lines.flatMap Line.kept) =
      lines.flatMap fun line => words line.summaryText := by
  rw [words_space]
  induction lines with
  | nil => rfl
  | cons line lines ih =>
      have text : (line :: lines).flatMap Line.kept =
          ' ' :: (line.summaryText ++ ' ' :: lines.flatMap Line.kept) := by
        simp [Line.kept]
      rw [text, words_space, words_append_space, ih, List.flatMap_cons]

/--
The summary of a doc comment in the usual layout consists of the words of its
text lines in their order, with single spaces between them.
-/
theorem summary_written (lines : List Line) :
    summary (written lines) = " ".intercalate (lines.flatMap Line.words) := by
  apply String.toList_inj.mp
  calc (summary (written lines)).toList
    _ = trim (joinSpaces (' ' :: lines.flatMap Line.kept)) := by
        rw [summary, dropNoise_written, String.toList_ofList]
    _ = [' '].intercalate (words (' ' :: lines.flatMap Line.kept)) := by
        rw [trim_joinSpaces, joinSpaces_trim_eq_words (isSpaced_kept lines)]
    _ = [' '].intercalate (lines.flatMap fun line => words line.summaryText) := by
        rw [words_kept]
    _ = (" ".intercalate (lines.flatMap Line.words)).toList := by
        rw [String.toList_intercalate, List.map_flatMap]
        congr 2
        funext line
        simp [Line.words, Function.comp_def]

example :
    summary "/**\n * Gets  tax\n * @see Tax\n * for editing\n */" =
      "Gets tax for editing" := by
  decide +kernel

end BusReference.DocComment
