import BusReference.Proofs.Php.Lexeme.InlineText
import BusReference.Proofs.Php.Lexeme.Segments
import BusReference.Proofs.Text.Removing

/-!
# Lexemes in other surroundings

Where a lexeme ends depends on its own characters and on those right after it.
So a lexeme of one text is read again in another one, as long as what follows
there does not go on with it.  Each length is told for a text and any rest after
it, and each kind of lexeme by its first characters.
-/

namespace BusReference.Php

open BusReference.Text.Blank (isBlank)
open BusReference.Text.Pieces (prefix_append_cons_iff)
open Lexeme.Reading

namespace Lexeme.Reading

/-! ## Runs, names and quoted texts -/

/-- The rest does not start with a character that passes the test. -/
def StopsAt (p : Char → Bool) (rest : List Char) : Prop :=
  rest.head?.any p = false

instance (p : Char → Bool) (rest : List Char) : Decidable (StopsAt p rest) :=
  inferInstanceAs (Decidable (_ = false))

theorem runLength_append
    {p : Char → Bool} {body : List Char} (passes : ∀ c ∈ body, p c = true)
    (rest : List Char) :
    runLength p (body ++ rest) = body.length + runLength p rest := by
  rw [runLength, List.takeWhile_append_of_pos passes, List.length_append]
  rfl

theorem runLength_eq_zero_iff {p : Char → Bool} {rest : List Char} :
    runLength p rest = 0 ↔ StopsAt p rest := by
  cases rest with
  | nil => exact iff_of_true rfl rfl
  | cons c cs =>
      rw [StopsAt, List.head?_cons, Option.any_some]
      cases stops : p c with
      | false => simp [runLength, stops]
      | true => simp [runLength_cons stops]

theorem runLength_append_of_stopsAt
    {p : Char → Bool} {body rest : List Char}
    (passes : ∀ c ∈ body, p c = true) (stops : StopsAt p rest) :
    runLength p (body ++ rest) = body.length := by
  rw [runLength_append passes, runLength_eq_zero_iff.mpr stops, Nat.add_zero]

theorem stopsAt_drop_runLength (p : Char → Bool) (cs : List Char) :
    StopsAt p (cs.drop (runLength p cs)) := by
  rw [drop_runLength, StopsAt]
  cases left : cs.dropWhile p with
  | nil => rfl
  | cons c rest =>
      have stops := List.head?_dropWhile_not p cs
      rw [left] at stops
      simpa using stops

theorem stopsAt_take
    {p : Char → Bool} {cs : List Char} (stops : StopsAt p cs) (n : Nat) :
    StopsAt p (cs.take n) := by
  cases cs with
  | nil => rwa [List.take_nil]
  | cons c cs =>
      cases n with
      | zero => rfl
      | succ n => exact stops

theorem stopsAt_append
    {p : Char → Bool} {cs rest : List Char} (front : StopsAt p cs)
    (back : StopsAt p rest) : StopsAt p (cs ++ rest) := by
  cases cs with
  | nil => exact back
  | cons c cs => exact front

/-- Letters that a text starts with stand in its front if that is where they
stop. -/
theorem prefix_append_iff_of_stopsAt
    {p : Char → Bool} {pattern cs rest : List Char}
    (letters : ∀ d ∈ pattern, p d = true) (stops : StopsAt p rest) :
    pattern <+: cs ++ rest ↔ pattern <+: cs := by
  cases rest with
  | nil => rw [List.append_nil]
  | cons d rest =>
      refine prefix_append_cons_iff fun inside => ?_
      have passes := letters d inside
      rw [show p d = false from stops] at passes
      cases passes

/-- What follows a whole name goes on with it or does not. -/
theorem nameLength_append
    {body : List Char} (whole : nameLength body = body.length)
    (rest : List Char) :
    nameLength (body ++ rest) = body.length + nameLength rest := by
  induction body with
  | nil => simp
  | cons c body ih =>
      rw [nameLength_cons, List.length_cons] at whole
      split at whole
      · rename_i goesOn
        have still : (isNameChar c || (c == '\\' &&
            (body ++ rest).head?.any fun d => isNameStart d || d == '\x7b')) =
              true := by
          cases body with
          | nil =>
              have named : isNameChar c = true := by simpa using goesOn
              simp [named]
          | cons d body => exact goesOn
        rw [List.cons_append, nameLength_cons, if_pos still,
          ih (Nat.succ.inj whole), List.length_cons]
        omega
      · cases whole

/-- A name that does not end in a backslash is one without what follows. -/
theorem nameLength_of_append
    {body rest : List Char}
    (measured : nameLength (body ++ rest) = body.length)
    (ends : body.getLast? ≠ some '\\') : nameLength body = body.length := by
  induction body with
  | nil => rfl
  | cons c body ih =>
      rw [List.cons_append, nameLength_cons, List.length_cons] at measured
      split at measured
      · rename_i goesOn
        cases body with
        | nil =>
            have other : c ≠ '\\' := by simpa using ends
            have named : isNameChar c = true := by simpa [other] using goesOn
            rw [nameLength_cons, if_pos (by simp [named])]
            rfl
        | cons d body =>
            have still : (isNameChar c || (c == '\\' &&
                (d :: body).head?.any fun d => isNameStart d || d == '\x7b')) =
                  true := goesOn
            rw [nameLength_cons, if_pos still,
              ih (Nat.succ.inj measured) (by simpa using ends)]
            rfl
      · cases measured

theorem quotedLength_append
    {quote : Char} {body : List Char} (escaped : Escaped quote body)
    (apart : quote ≠ '\\') (rest : List Char) :
    quotedLength quote (body ++ quote :: rest) = some (body.length + 1) := by
  induction escaped with
  | nil => rw [List.nil_append, quotedLength_cons apart, if_pos rfl]; rfl
  | pair c later ih =>
      rw [List.cons_append, List.cons_append, quotedLength, ih]
      rfl
  | plain unquoted plain later ih =>
      rw [List.cons_append, quotedLength_cons plain, if_neg unquoted, ih]
      rfl

/-! ## Heredocs -/

/-- The lines of a heredoc from the end of the first one on, up to its closing
label. -/
inductive HeredocBody (label : List Char) : List Char → Prop
  | last {indent : List Char} (blank : ∀ c ∈ indent, isIndent c = true) :
      HeredocBody label ('\n' :: (indent ++ label))
  | line {indent line body : List Char}
      (blank : ∀ c ∈ indent, isIndent c = true)
      (stops : StopsAt isIndent line) (noBreak : '\n' ∉ line)
      (goesOn : closesHeredoc label line = false)
      (later : HeredocBody label body) :
      HeredocBody label ('\n' :: (indent ++ (line ++ body)))

/-- The text of a heredoc after its `<<<`. -/
inductive HeredocText : List Char → Prop
  | mk {lead label first body : List Char}
      (leads : HeredocLead lead) (labelled : label ≠ [])
      (letters : ∀ c ∈ label, isNameChar c = true)
      (stops : StopsAt isNameChar first) (noBreak : '\n' ∉ first)
      (lines : HeredocBody label body) :
      HeredocText (lead ++ (label ++ (first ++ body)))

section Heredocs

variable {label line body rest cs : List Char} {n : Nat}

theorem isIndent_of_isNameChar {c : Char} (letter : isNameChar c = true) :
    isIndent c = false ∧ c ≠ '\'' ∧ c ≠ '"' ∧ c ≠ '\n' := by
  refine ⟨?_, ?_, ?_, ?_⟩
  · rw [Bool.eq_false_iff]
    intro indent
    rcases (Bool.or_eq_true _ _).mp indent with blank | blank
    · rw [eq_of_beq blank] at letter
      cases letter
    · rw [eq_of_beq blank] at letter
      cases letter
  all_goals
    rintro rfl
    cases letter

theorem HeredocBody.exists_eq_cons (lines : HeredocBody label body) :
    ∃ tail, body = '\n' :: tail := by
  cases lines with
  | last => exact ⟨_, rfl⟩
  | line => exact ⟨_, rfl⟩

/-- Whether a line closes a heredoc is seen from that line alone. -/
theorem closesHeredoc_append_newline
    (letters : ∀ c ∈ label, isNameChar c = true) (line rest : List Char) :
    closesHeredoc label (line ++ '\n' :: rest) = closesHeredoc label line := by
  have noBreak : '\n' ∉ label := fun inside =>
    (isIndent_of_isNameChar (letters _ inside)).2.2.2 rfl
  by_cases starts : label <+: line
  · obtain ⟨tail, rfl⟩ := starts
    have front : ∀ cs, label.isPrefixOf (label ++ cs) = true := fun cs =>
      List.isPrefixOf_iff_prefix.mpr (List.prefix_append _ _)
    rw [closesHeredoc, closesHeredoc, List.append_assoc, List.drop_left,
      List.drop_left, front, front]
    cases tail with
    | nil => rfl
    | cons c tail => rfl
  · have other : ¬ label <+: line ++ '\n' :: rest := by
      rwa [prefix_append_cons_iff noBreak]
    rw [← List.isPrefixOf_iff_prefix, Bool.not_eq_true] at starts other
    rw [closesHeredoc, closesHeredoc, starts, other]
    rfl

theorem exists_of_closesHeredoc
    (closes : closesHeredoc label line = true) :
    ∃ rest, line = label ++ rest ∧ StopsAt isNameChar rest := by
  rw [closesHeredoc, Bool.and_eq_true, List.isPrefixOf_iff_prefix] at closes
  obtain ⟨⟨rest, rfl⟩, ends⟩ := closes
  rw [List.drop_left] at ends
  exact ⟨rest, rfl, by simpa [StopsAt] using ends⟩

theorem closesHeredoc_label (stops : StopsAt isNameChar rest) :
    closesHeredoc label (label ++ rest) = true := by
  rw [closesHeredoc, List.drop_left, Bool.and_eq_true,
    List.isPrefixOf_iff_prefix]
  rw [StopsAt] at stops
  exact ⟨List.prefix_append _ _, by rw [stops]; rfl⟩

theorem exists_heredocBody
    (letters : ∀ c ∈ label, isNameChar c = true)
    (starts : cs = [] ∨ cs.head? = some '\n')
    (closed : heredocBodyLength label cs = some n) :
    ∃ body rest, cs = body ++ rest ∧ n = body.length ∧
      HeredocBody label body ∧ StopsAt isNameChar rest := by
  fun_induction heredocBodyLength label cs generalizing n with
  | case1 => cases closed
  | case2 c cs indent line =>
      rename_i closes
      cases closed
      obtain ⟨rest, same, stops⟩ := exists_of_closesHeredoc closes
      obtain rfl : c = '\n' := by simpa using starts
      refine ⟨'\n' :: (cs.take indent ++ label), rest, ?_, ?_,
        .last (forall_mem_take_runLength isIndent cs), stops⟩
      · rw [List.cons_append, List.append_assoc, ← same, List.take_append_drop]
      · rw [List.length_cons, List.length_append, List.length_take,
          Nat.min_eq_left (runLength_le isIndent cs)]
        omega
  | case3 c cs indent line other m =>
      rename_i ih
      obtain ⟨later, measured, rfl⟩ := Option.map_eq_some_iff.mp closed
      obtain ⟨body, rest, split, rfl, lines, stops⟩ :=
        ih (ends_drop_lineLength line) measured
      obtain rfl : c = '\n' := by simpa using starts
      obtain ⟨tail, rfl⟩ := lines.exists_eq_cons
      have whole : line = line.take m ++ '\n' :: (tail ++ rest) := by
        rw [← List.cons_append, ← split, List.take_append_drop]
      have text : cs = cs.take indent ++ line := (List.take_append_drop _ _).symm
      refine ⟨'\n' :: (cs.take indent ++ (line.take m ++ '\n' :: tail)), rest,
        ?_, ?_, .line (forall_mem_take_runLength isIndent cs) ?_
          (not_mem_take_lineLength line) ?_ lines, stops⟩
      · rw [List.cons_append, List.append_assoc, List.append_assoc,
          List.cons_append, ← whole, ← text]
      · have within : indent ≤ cs.length := runLength_le isIndent cs
        have inside : m ≤ line.length := runLength_le _ line
        simp only [List.length_cons, List.length_append, List.length_take,
          Nat.min_eq_left within, Nat.min_eq_left inside]
        omega
      · exact stopsAt_take (stopsAt_drop_runLength isIndent cs) m
      · rw [whole, closesHeredoc_append_newline letters, Bool.not_eq_true] at other
        exact other

theorem heredocBodyLength_append
    (labelled : label ≠ []) (letters : ∀ c ∈ label, isNameChar c = true)
    (lines : HeredocBody label body) (stops : StopsAt isNameChar rest) :
    heredocBodyLength label (body ++ rest) = some body.length := by
  have begins : ∀ cs, StopsAt isIndent (label ++ cs) := by
    intro cs
    cases label with
    | nil => exact absurd rfl labelled
    | cons c label => exact (isIndent_of_isNameChar (letters c (by simp))).1
  induction lines with
  | @last indent blank =>
      have length : runLength isIndent (indent ++ (label ++ rest)) =
          indent.length :=
        runLength_append_of_stopsAt blank (begins rest)
      rw [List.cons_append, List.append_assoc, heredocBodyLength_cons, length,
        List.drop_left, if_pos (closesHeredoc_label stops), List.length_cons,
        List.length_append]
      congr 1
      omega
  | @line indent line body blank unindented noBreak goesOn later ih =>
      obtain ⟨tail, rfl⟩ := later.exists_eq_cons
      have next : StopsAt isIndent (line ++ ('\n' :: (tail ++ rest))) :=
        stopsAt_append unindented rfl
      have length : runLength isIndent (indent ++ (line ++ ('\n' :: (tail ++ rest)))) =
          indent.length :=
        runLength_append_of_stopsAt blank next
      have still : ¬ closesHeredoc label (line ++ '\n' :: (tail ++ rest)) = true := by
        rw [closesHeredoc_append_newline letters, goesOn]
        exact Bool.false_ne_true
      rw [List.cons_append, List.append_assoc, List.append_assoc,
        List.cons_append, heredocBodyLength_cons, length, List.drop_left,
        if_neg still, lineLength_append noBreak, List.drop_left,
        ← List.cons_append, ih, Option.map_some]
      simp only [List.length_cons, List.length_append]
      congr 1
      omega

theorem heredocLeadLength_append
    {lead : List Char} (leads : HeredocLead lead) {c : Char}
    (letter : isNameChar c = true) (rest : List Char) :
    heredocLeadLength (lead ++ c :: rest) = lead.length := by
  obtain ⟨noIndent, noSingle, noDouble, -⟩ := isIndent_of_isNameChar letter
  cases leads with
  | bare blank =>
      have stops : StopsAt isIndent (c :: rest) := noIndent
      rw [heredocLeadLength, runLength_append_of_stopsAt blank stops,
        List.drop_left, List.head?_cons, if_neg (by simp [noSingle, noDouble])]
  | @quoted indent quote blank mark =>
      have stops : StopsAt isIndent (quote :: c :: rest) := by
        rcases mark with rfl | rfl <;> rfl
      rw [List.append_assoc, List.singleton_append, heredocLeadLength,
        runLength_append_of_stopsAt blank stops, List.drop_left,
        List.head?_cons, if_pos (by simpa using mark), List.length_append]
      rfl

theorem heredocLength?_eq_none_iff_stopsAt :
    heredocLength? cs = none ↔
      StopsAt isNameChar (cs.drop (heredocLeadLength cs)) := by
  rw [← runLength_eq_zero_iff, runLength, List.length_eq_zero_iff,
    heredocLength?]
  dsimp only
  split
  · rename_i empty
    exact iff_of_true rfl (List.isEmpty_iff.mp empty)
  · rename_i named
    exact iff_of_false (Option.some_ne_none _) fun nothing =>
      named (List.isEmpty_iff.mpr nothing)

/-- Where a label follows, the rest of the text decides about the heredoc. -/
theorem heredocLength?_label
    {lead body : List Char} (leads : HeredocLead lead) (labelled : label ≠ [])
    (letters : ∀ c ∈ label, isNameChar c = true)
    (stops : StopsAt isNameChar body) :
    heredocLength? (lead ++ (label ++ body)) =
      some ((heredocBodyLength label (body.drop (lineLength body))).map
        (lead.length + label.length + lineLength body + ·)) := by
  have length : heredocLeadLength (lead ++ (label ++ body)) = lead.length := by
    cases label with
    | nil => exact absurd rfl labelled
    | cons c label =>
        exact heredocLeadLength_append leads (letters c (by simp)) _
  have name : (label ++ body).takeWhile isNameChar = label := by
    rw [← take_runLength, runLength_append_of_stopsAt letters stops,
      List.take_left]
  simp only [heredocLength?, length, List.drop_left, name]
  rw [if_neg (by simpa using labelled), Nat.add_assoc, ← List.drop_drop,
    List.drop_left, ← List.drop_drop, List.drop_left]

theorem exists_label_of_heredocLength?
    {closed : Option Nat} (found : heredocLength? cs = some closed) :
    ∃ lead label body, cs = lead ++ (label ++ body) ∧ HeredocLead lead ∧
      label ≠ [] ∧ (∀ c ∈ label, isNameChar c = true) ∧
      StopsAt isNameChar body := by
  obtain ⟨lead, labelled, rfl, length, leads⟩ := exists_of_heredocLeadLength cs
  have named : ¬ heredocLength? (lead ++ labelled) = none := by
    rw [found]
    exact Option.some_ne_none _
  rw [heredocLength?_eq_none_iff_stopsAt, length, List.drop_left,
    ← runLength_eq_zero_iff] at named
  refine ⟨lead, labelled.take (runLength isNameChar labelled),
    labelled.drop (runLength isNameChar labelled), ?_, leads, ?_,
    forall_mem_take_runLength isNameChar labelled,
    stopsAt_drop_runLength isNameChar labelled⟩
  · rw [List.take_append_drop]
  · rw [Ne, List.take_eq_nil_iff, not_or]
    refine ⟨named, ?_⟩
    rintro rfl
    exact named rfl

theorem exists_heredocText
    (closed : heredocLength? cs = some (some n)) :
    ∃ text rest, cs = text ++ rest ∧ n = text.length ∧ HeredocText text ∧
      StopsAt isNameChar rest := by
  obtain ⟨lead, label, opened, rfl, leads, labelled, letters, stops⟩ :=
    exists_label_of_heredocLength? closed
  rw [heredocLength?_label leads labelled letters stops, Option.some.injEq,
    Option.map_eq_some_iff] at closed
  obtain ⟨m, measured, rfl⟩ := closed
  obtain ⟨body, rest, same, rfl, lines, ends⟩ :=
    exists_heredocBody letters (ends_drop_lineLength opened) measured
  have within : lineLength opened ≤ opened.length := runLength_le _ _
  refine ⟨lead ++ (label ++ (opened.take (lineLength opened) ++ body)), rest,
    ?_, ?_, .mk leads labelled letters (stopsAt_take stops _)
      (not_mem_take_lineLength opened) lines, ends⟩
  · rw [List.append_assoc, List.append_assoc, List.append_assoc, ← same,
      List.take_append_drop]
  · simp only [List.length_append, List.length_take, Nat.min_eq_left within]
    omega

/-- A heredoc ends with its label if no letter follows there. -/
theorem heredocLength?_append
    {text : List Char} (heredoc : HeredocText text)
    (stops : StopsAt isNameChar rest) :
    heredocLength? (text ++ rest) = some (some text.length) := by
  obtain ⟨leads, labelled, letters, unlabelled, noBreak, lines⟩ := heredoc
  rename_i lead label first body
  obtain ⟨tail, rfl⟩ := lines.exists_eq_cons
  have next : StopsAt isNameChar (first ++ '\n' :: (tail ++ rest)) :=
    stopsAt_append unlabelled rfl
  have bodyLength := heredocBodyLength_append labelled letters lines stops
  rw [List.cons_append] at bodyLength
  simp only [List.append_assoc, List.cons_append]
  rw [heredocLength?_label leads labelled letters next, lineLength_append noBreak,
    List.drop_left, bodyLength, Option.map_some]
  simp only [List.length_append, Nat.add_assoc]

/-- The text opens with the label of a heredoc, in quotes or not. -/
def opensLabel : List Char → Bool
  | [] => false
  | c :: cs =>
      isNameChar c || ((c == '\'' || c == '"') && cs.head?.any isNameChar)

/-- Without indentation, a label is seen at once. -/
theorem heredocLength?_eq_none_iff
    {cs : List Char} (stops : StopsAt isIndent cs) :
    heredocLength? cs = none ↔ ¬ opensLabel cs = true := by
  have noIndent : runLength isIndent cs = 0 := runLength_eq_zero_iff.mpr stops
  rw [heredocLength?_eq_none_iff_stopsAt, heredocLeadLength, noIndent,
    List.drop_zero, Bool.not_eq_true]
  cases cs with
  | nil => exact iff_of_true rfl rfl
  | cons c cs =>
      rw [List.head?_cons, Option.any_some, opensLabel]
      cases quote : c == '\'' || c == '"' with
      | false =>
          rw [if_neg Bool.false_ne_true, List.drop_zero, Bool.false_and,
            Bool.or_false]
          rfl
      | true =>
          have noLetter : isNameChar c = false := by
            rcases (Bool.or_eq_true _ _).mp quote with single | double
            · rw [eq_of_beq single]
              rfl
            · rw [eq_of_beq double]
              rfl
          rw [if_pos rfl, noLetter, Bool.true_and, Bool.false_or]
          rfl

end Heredocs

/-! ## Kinds of lexemes by their first characters -/

section Measures

variable {c : Char} {cs : List Char}

/-- The characters that can start lexemes of different kinds. -/
def leading : List Char := ['<', '?', '/', '#', '\'', '"', '`', '$', '.']

theorem not_mem_leading_of_isNameStart (starts : isNameStart c = true) :
    c ∉ leading := by
  have others : ∀ d ∈ leading, isNameStart d = false := by
    simp only [leading, List.forall_mem_cons, List.not_mem_nil, false_implies,
      implies_true, and_true]
    decide
  intro inside
  rw [others c inside] at starts
  cases starts

theorem not_mem_leading_of_isDigit (digit : c.isDigit = true) : c ∉ leading := by
  have others : ∀ d ∈ leading, d.isDigit = false := by
    simp only [leading, List.forall_mem_cons, List.not_mem_nil, false_implies,
      implies_true, and_true]
    decide
  intro inside
  rw [others c inside] at digit
  cases digit

theorem measure_plain
    (visible : isBlank c = false) (plain : c ∉ leading) (cs : List Char) :
    measure c cs =
      if c.isDigit then .ok (.number, runLength isNumberChar cs)
      else if isNameStart c ∨ (c = '\\' ∧ cs.head?.any isNameStart) then
        .ok (.name, nameLength cs)
      else .ok (.punct, 0) := by
  simp only [leading, List.mem_cons, List.not_mem_nil, or_false, not_or] at plain
  obtain ⟨arrow, question, slash, hash, single, double, grave, dollar, dot⟩ := plain
  simp [measure, openTag, visible, arrow, Ne.symm arrow, question, slash, hash,
    single, double, grave, dollar, dot]

theorem toNat_of_isDigit (digit : c.isDigit = true) :
    48 ≤ c.toNat ∧ c.toNat ≤ 57 := by
  rw [Char.isDigit, Bool.and_eq_true, decide_eq_true_eq, decide_eq_true_eq] at digit
  exact ⟨UInt32.le_iff_toNat_le.mp digit.1, UInt32.le_iff_toNat_le.mp digit.2⟩

theorem isBlank_of_isDigit (digit : c.isDigit = true) : isBlank c = false := by
  have range := toNat_of_isDigit digit
  simp only [isBlank, Bool.or_eq_false_iff, Bool.and_eq_false_iff,
    decide_eq_false_iff_not, beq_eq_false_iff_ne]
  omega

theorem isNameStart_of_isDigit (digit : c.isDigit = true) :
    isNameStart c = false := by
  have range := toNat_of_isDigit digit
  have noLetter : c.isAlpha = false := by
    change (decide (c.val ≥ 'A'.val ∧ c.val ≤ 'Z'.val) ||
      c.val ≥ 'a'.val && c.val ≤ 'z'.val) = false
    simp only [Bool.or_eq_false_iff, Bool.and_eq_false_iff,
      decide_eq_false_iff_not, UInt32.le_iff_toNat_le, ge_iff_le]
    have code : c.val.toNat = c.toNat := rfl
    have bounds : ('A'.val.toNat = 65 ∧ 'Z'.val.toNat = 90) ∧
        'a'.val.toNat = 97 ∧ 'z'.val.toNat = 122 := by decide
    omega
  have noLine : c ≠ '_' := by
    rintro rfl
    cases digit
  have ascii : ¬ 0x80 ≤ c.toNat := by omega
  simp [isNameStart, noLetter, noLine, ascii]

theorem measure_number
    (starts : c.isDigit = true ∨ c = '.' ∧ cs.head?.any Char.isDigit = true) :
    measure c cs = .ok (.number, runLength isNumberChar cs) := by
  rcases starts with digit | ⟨rfl, digit⟩
  · rw [measure_plain (isBlank_of_isDigit digit)
      (not_mem_leading_of_isDigit digit), if_pos digit]
  · cases cs with
    | nil => cases digit
    | cons d cs =>
        have other : d ≠ '.' := by
          rintro rfl
          cases digit
        have number : d.isDigit = true := digit
        simp [measure, openTag, isBlank, Ne.symm other, number]

theorem measure_name
    (visible : isBlank c = false)
    (starts : isNameStart c = true ∨
      c = '\\' ∧ cs.head?.any isNameStart = true) :
    measure c cs = .ok (.name, nameLength cs) := by
  have plain : c ∉ leading ∧ c.isDigit = false := by
    rcases starts with letter | ⟨rfl, -⟩
    · refine ⟨not_mem_leading_of_isNameStart letter, ?_⟩
      rw [Bool.eq_false_iff]
      intro digit
      rw [isNameStart_of_isDigit digit] at letter
      cases letter
    · exact ⟨by decide, rfl⟩
  rw [measure_plain visible plain.1, plain.2, if_neg Bool.false_ne_true, if_pos starts]

theorem measure_quote (mark : IsQuote c) (cs : List Char) :
    measure c cs =
      match quotedLength c cs with
      | none => .error .string
      | some n => .ok (.quoted, n) := by
  rcases mark with rfl | rfl | rfl <;> rfl

theorem measure_arrows (cs : List Char) :
    measure '<' ('<' :: '<' :: cs) =
      match heredocLength? cs with
      | none => .ok (.punct, 0)
      | some none => .error .heredoc
      | some (some n) => .ok (.heredoc, n + 2) := by
  cases length : heredocLength? cs with
  | none => simp [measure, openTag, isBlank, length]
  | some found =>
      cases found with
      | none => simp [measure, openTag, isBlank, length]
      | some n => simp [measure, openTag, isBlank, length]

theorem measure_dollar (named : cs.head?.any isNameStart = true) :
    measure '$' cs = .ok (.variable, runLength isNameChar cs) := by
  simp [measure, openTag, isBlank, named]

theorem measure_bracket (cs : List Char) :
    measure '#' ('[' :: cs) = .ok (.attributeOpen, 1) := by
  simp [measure, openTag, isBlank]

theorem measure_dots (cs : List Char) :
    measure '.' ('.' :: '.' :: cs) = .ok (.ellipsis, 2) := by
  simp [measure, openTag, isBlank]

/-! Marks and what may follow them. -/

theorem measure_dollar_iff :
    measure '$' cs = .ok (.punct, 0) ↔
      ¬ cs.head?.any isNameStart = true := by
  by_cases named : cs.head?.any isNameStart = true
  · rw [measure_dollar named]
    exact iff_of_false nofun (not_not_intro named)
  · refine iff_of_true ?_ named
    simp [measure, openTag, isBlank, named, isNameStart]

theorem measure_backslash_iff :
    measure '\\' cs = .ok (.punct, 0) ↔
      ¬ cs.head?.any isNameStart = true := by
  rw [measure_plain rfl (by decide), if_neg (by decide)]
  by_cases named : cs.head?.any isNameStart = true
  · rw [if_pos (.inr ⟨rfl, named⟩)]
    exact iff_of_false nofun (not_not_intro named)
  · rw [if_neg (by simp [isNameStart, named])]
    exact iff_of_true rfl named

theorem measure_slash_iff :
    measure '/' cs = .ok (.punct, 0) ↔
      ¬ cs.head? = some '/' ∧ ¬ cs.head? = some '*' := by
  cases cs with
  | nil => simp [measure, openTag, isBlank, isNameStart]
  | cons d cs =>
      by_cases slash : d = '/'
      · subst slash
        rw [measure_slashes]
        simp
      · by_cases star : d = '*'
        · subst star
          refine iff_of_false ?_ fun apart => apart.2 rfl
          cases length : commentLength cs with
          | none => simp [measure, openTag, isBlank, length]
          | some n => simp [measure_comment length]
        · simp [measure, openTag, isBlank, isNameStart, slash, star]

theorem measure_question_iff :
    measure '?' cs = .ok (.punct, 0) ↔ cs.head? ≠ some '>' := by
  cases cs with
  | nil => simp [measure, openTag, isBlank, isNameStart]
  | cons d cs =>
      by_cases closes : d = '>'
      · subst closes
        rw [measure_closingTag]
        simp
      · simp [measure, openTag, isBlank, isNameStart, closes]

theorem measure_dot_iff :
    measure '.' cs = .ok (.punct, 0) ↔
      ¬ ['.', '.'] <+: cs ∧ ¬ cs.head?.any Char.isDigit = true := by
  by_cases dots : ['.', '.'] <+: cs
  · obtain ⟨after, rfl⟩ := dots
    refine iff_of_false ?_ fun apart => apart.1 (List.prefix_append _ _)
    rw [List.cons_append, List.cons_append, measure_dots]
    nofun
  · by_cases digit : cs.head?.any Char.isDigit = true
    · rw [measure_number (.inr ⟨rfl, digit⟩)]
      exact iff_of_false nofun fun apart => apart.2 digit
    · refine iff_of_true ?_ ⟨dots, digit⟩
      rw [← List.isPrefixOf_iff_prefix] at dots
      simp [measure, openTag, isBlank, isNameStart, dots, digit]

theorem measure_arrow_iff :
    measure '<' cs = .ok (.punct, 0) ↔
      ¬ ['?', 'p', 'h', 'p'] <+: cs ∧
        ∀ after, cs = '<' :: '<' :: after → heredocLength? after = none := by
  by_cases opens : ['?', 'p', 'h', 'p'] <+: cs
  · refine iff_of_false ?_ fun apart => apart.1 opens
    rw [← List.isPrefixOf_iff_prefix] at opens
    simp [measure, openTag, opens]
  · by_cases arrows : ['<', '<'] <+: cs
    · obtain ⟨after, rfl⟩ := arrows
      have measured := measure_arrows after
      rw [List.cons_append, List.cons_append, List.nil_append] at opens ⊢
      cases length : heredocLength? after with
      | none =>
          rw [length] at measured
          refine iff_of_true measured ⟨opens, ?_⟩
          rintro _ ⟨⟩
          exact length
      | some found =>
          refine iff_of_false ?_ fun apart => ?_
          · rw [measured, length]
            intro other
            cases found <;> cases other
          · rw [apart.2 after rfl] at length
            cases length
    · refine iff_of_true ?_ ⟨opens, ?_⟩
      · rw [← List.isPrefixOf_iff_prefix] at opens arrows
        simp [measure, openTag, isBlank, isNameStart, opens, arrows]
      · rintro after rfl
        exact absurd ⟨after, rfl⟩ arrows

end Measures

end Lexeme.Reading

end BusReference.Php
