import BusReference.Proofs.Php.Lexeme.Surroundings

/-!
# Constructs without an end

A block comment, a quoted text and a heredoc are read up to their ends.  If the
end does not stand in the rest of the text, the text cannot be read, and nothing
else keeps a text from being read.  Reading goes from lexeme to lexeme, so the
construct at fault is the first one without an end that the reading comes to;
what looks like one inside of a comment, a quoted text or inline text is passed
over.
-/

namespace BusReference.Php

open BusReference.Text.Blank (isBlank)
open Lexeme.Reading

namespace Lexeme.Reading

/-! ## Ends that are missing -/

theorem commentLength_eq_none_iff {cs : List Char} :
    commentLength cs = none ↔ ¬ commentEnd <:+: cs := by
  constructor
  · intro missing
    fun_induction commentLength cs with
    | case1 => exact fun occurs => absurd (List.infix_nil.mp occurs) (by decide)
    | case2 => cases missing
    | case3 c cs other ih =>
        rw [List.infix_cons_iff, not_or]
        refine ⟨?_, ih (Option.map_eq_none_iff.mp missing)⟩
        rintro ⟨after, same⟩
        obtain ⟨star, slash⟩ := List.cons.inj same
        exact other after star.symm slash.symm
  · intro absent
    cases closed : commentLength cs with
    | none => rfl
    | some n =>
        obtain ⟨body, rest, rfl, -⟩ := exists_of_commentLength closed
        exact absurd ⟨body, rest, rfl⟩ absent

theorem IsQuote.ne_backslash {quote : Char} (mark : IsQuote quote) :
    quote ≠ '\\' := by
  rintro rfl
  rcases mark with same | same | same <;> cases same

/-- The closing quote stands in the text: one that no backslash escapes. -/
def HasQuote (quote : Char) (cs : List Char) : Prop :=
  ∃ body rest, cs = body ++ quote :: rest ∧ Escaped quote body

theorem quotedLength_eq_none_iff {quote : Char} {cs : List Char}
    (apart : quote ≠ '\\') :
    quotedLength quote cs = none ↔ ¬ HasQuote quote cs := by
  constructor
  · rintro missing ⟨body, rest, rfl, escaped⟩
    rw [quotedLength_append escaped apart] at missing
    cases missing
  · intro absent
    cases closed : quotedLength quote cs with
    | none => rfl
    | some n =>
        obtain ⟨body, rest, text, -, escaped⟩ := exists_of_quotedLength closed
        exact absurd ⟨body, rest, text, escaped⟩ absent

/-- A later line of the text starts with the closing label of a heredoc, perhaps
behind blanks, and the name there does not go on. -/
def HasClosingLine (label cs : List Char) : Prop :=
  ∃ before indent after, cs = before ++ '\n' :: (indent ++ (label ++ after)) ∧
    (∀ c ∈ indent, isIndent c = true) ∧ StopsAt isNameChar after

section Heredocs

variable {label cs : List Char}

theorem stopsAt_isIndent_label
    (labelled : label ≠ []) (letters : ∀ c ∈ label, isNameChar c = true)
    (after : List Char) : StopsAt isIndent (label ++ after) := by
  cases label with
  | nil => exact absurd rfl labelled
  | cons c label => exact (isIndent_of_isNameChar (letters c (by simp))).1

/-- What stands on one line does not matter for the later ones. -/
theorem hasClosingLine_append
    {front : List Char} (line : '\n' ∉ front) (rest : List Char) :
    HasClosingLine label (front ++ rest) ↔ HasClosingLine label rest := by
  constructor
  · rintro ⟨before, indent, after, text, blank, stops⟩
    obtain ⟨lead, -, rfl⟩ :=
      Text.Pieces.exists_append_of_not_mem line text
    exact ⟨lead, indent, after, rfl, blank, stops⟩
  · rintro ⟨before, indent, after, rfl, blank, stops⟩
    refine ⟨front ++ before, indent, after, ?_, blank, stops⟩
    rw [List.append_assoc]

theorem hasClosingLine_newline
    (labelled : label ≠ []) (letters : ∀ c ∈ label, isNameChar c = true) :
    HasClosingLine label ('\n' :: cs) ↔
      closesHeredoc label (cs.drop (runLength isIndent cs)) = true ∨
        HasClosingLine label cs := by
  constructor
  · rintro ⟨before, indent, after, text, blank, stops⟩
    cases before with
    | nil =>
        obtain ⟨-, rfl⟩ := List.cons.inj text
        have start := stopsAt_isIndent_label labelled letters after
        rw [runLength_append_of_stopsAt blank start, List.drop_left]
        exact .inl (closesHeredoc_label stops)
    | cons b before =>
        obtain ⟨-, rfl⟩ := List.cons.inj text
        exact .inr ⟨before, indent, after, rfl, blank, stops⟩
  · rintro (closes | ⟨before, indent, after, rfl, blank, stops⟩)
    · obtain ⟨after, line, stops⟩ := exists_of_closesHeredoc closes
      refine ⟨[], cs.take (runLength isIndent cs), after, ?_,
        forall_mem_take_runLength isIndent cs, stops⟩
      rw [← line, List.take_append_drop]
      rfl
    · exact ⟨'\n' :: before, indent, after, rfl, blank, stops⟩

theorem heredocBodyLength_eq_none_iff
    (labelled : label ≠ []) (letters : ∀ c ∈ label, isNameChar c = true)
    (starts : cs = [] ∨ cs.head? = some '\n') :
    heredocBodyLength label cs = none ↔ ¬ HasClosingLine label cs := by
  fun_induction heredocBodyLength label cs with
  | case1 =>
      refine iff_of_true rfl ?_
      rintro ⟨before, indent, after, text, -⟩
      simp at text
  | case2 c cs indent line =>
      rename_i closes
      obtain rfl : c = '\n' := by simpa using starts
      refine iff_of_false (Option.some_ne_none _) (not_not_intro ?_)
      exact (hasClosingLine_newline labelled letters).mpr (.inl closes)
  | case3 c cs indent line other n =>
      rename_i ih
      obtain rfl : c = '\n' := by simpa using starts
      have within : '\n' ∉ cs.take indent ++ line.take n := by
        rw [List.mem_append, not_or]
        refine ⟨fun inside => ?_, not_mem_take_lineLength line⟩
        cases forall_mem_take_runLength isIndent cs _ inside
      have text : cs = cs.take indent ++ line.take n ++ line.drop n := by
        rw [List.append_assoc, List.take_append_drop, List.take_append_drop]
      have later : HasClosingLine label cs ↔
          HasClosingLine label (line.drop n) := by
        rw [← hasClosingLine_append within (line.drop n), ← text]
      have split : HasClosingLine label ('\n' :: cs) ↔
          HasClosingLine label (line.drop n) := by
        rw [hasClosingLine_newline labelled letters, later]
        exact or_iff_right other
      rw [Option.map_eq_none_iff, ih (ends_drop_lineLength line), split]

end Heredocs

end Lexeme.Reading

/-! ## Constructs -/

/-- A construct opens at the start of the text, and its end does not stand in the
rest of it. -/
inductive Unterminated : Construct → List Char → Prop
  | comment {body : List Char} (endless : ¬ commentEnd <:+: body) :
      Unterminated .comment ('/' :: '*' :: body)
  | string {quote : Char} {body : List Char}
      (mark : IsQuote quote) (endless : ¬ HasQuote quote body) :
      Unterminated .string (quote :: body)
  | heredoc {lead label body : List Char}
      (leads : HeredocLead lead) (labelled : label ≠ [])
      (letters : ∀ c ∈ label, isNameChar c = true)
      (stops : StopsAt isNameChar body) (endless : ¬ HasClosingLine label body) :
      Unterminated .heredoc ('<' :: '<' :: '<' :: (lead ++ (label ++ body)))

/-- The rest of its line belongs to the start of a heredoc. -/
theorem hasClosingLine_drop_lineLength (label body : List Char) :
    HasClosingLine label (body.drop (lineLength body)) ↔
      HasClosingLine label body := by
  rw [← hasClosingLine_append (not_mem_take_lineLength body),
    List.take_append_drop]

theorem heredocLength?_eq_some_none_iff
    {label lead body : List Char} (leads : HeredocLead lead)
    (labelled : label ≠ []) (letters : ∀ c ∈ label, isNameChar c = true)
    (stops : StopsAt isNameChar body) :
    heredocLength? (lead ++ (label ++ body)) = some none ↔
      ¬ HasClosingLine label body := by
  rw [heredocLength?_label leads labelled letters stops, Option.some.injEq,
    Option.map_eq_none_iff, heredocBodyLength_eq_none_iff labelled letters
      (ends_drop_lineLength body), hasClosingLine_drop_lineLength]

variable {c : Char} {cs : List Char} {construct : Construct}

theorem Unterminated.measure_eq
    (open' : Unterminated construct (c :: cs)) :
    Lexeme.Reading.measure c cs = .error construct := by
  generalize text : c :: cs = whole at open'
  cases open' with
  | @comment body endless =>
      obtain ⟨rfl, rfl⟩ := List.cons.inj text
      have missing := commentLength_eq_none_iff.mpr endless
      simp [Lexeme.Reading.measure, openTag, isBlank, missing]
  | @string quote body mark endless =>
      obtain ⟨rfl, rfl⟩ := List.cons.inj text
      rw [measure_quote mark,
        (quotedLength_eq_none_iff (IsQuote.ne_backslash mark)).mpr endless]
  | @heredoc lead label body leads labelled letters stops endless =>
      obtain ⟨rfl, rfl⟩ := List.cons.inj text
      rw [measure_arrows, (heredocLength?_eq_some_none_iff leads labelled
        letters stops).mpr endless]

/-- Only a construct without an end cannot be measured. -/
theorem unterminated_of_measure
    (failed : Lexeme.Reading.measure c cs = .error construct) :
    Unterminated construct (c :: cs) := by
  revert failed
  -- of all lexemes only comments, quoted texts and heredocs need an end
  fun_cases Lexeme.Reading.measure c cs with
  | case7 _ _ _ _ _ opens missing =>
      rintro ⟨⟩
      obtain ⟨rfl, star⟩ := opens
      obtain ⟨body, rfl⟩ := List.head?_eq_some_iff.mp star
      exact .comment (commentLength_eq_none_iff.mp missing)
  | case9 _ _ _ _ _ _ mark missing =>
      rintro ⟨⟩
      have apart := IsQuote.ne_backslash mark
      exact .string mark ((quotedLength_eq_none_iff apart).mp missing)
  | case12 _ _ _ _ _ _ _ opens missing =>
      rintro ⟨⟩
      obtain ⟨rfl, arrows⟩ := opens
      obtain ⟨body, rfl⟩ := List.isPrefixOf_iff_prefix.mp arrows
      obtain ⟨lead, label, rest, rfl, leads, labelled, letters, stops⟩ :=
        exists_label_of_heredocLength? missing
      have endless := (heredocLength?_eq_some_none_iff leads labelled letters
        stops).mp missing
      have heredoc : Unterminated .heredoc
          ('<' :: '<' :: '<' :: (lead ++ (label ++ rest))) :=
        .heredoc leads labelled letters stops endless
      exact heredoc
  | _ => exact nofun

theorem measure_eq_error_iff :
    Lexeme.Reading.measure c cs = .error construct ↔
      Unterminated construct (c :: cs) :=
  ⟨unterminated_of_measure, Unterminated.measure_eq⟩

/-! ## The place of the fault -/

/-- Lexeme after lexeme, reading takes the second text and comes to the first,
which follows it. -/
inductive ReadsUpTo (rest : List Char) : List Char → Prop
  | start : ReadsUpTo rest []
  | lexeme {c : Char} {text before : List Char} {shape : Shape}
      (measured : Lexeme.Reading.measure c (text ++ (before ++ rest)) =
        .ok (shape, text.length))
      (later : ReadsUpTo rest before) :
      ReadsUpTo rest (c :: (text ++ before))

namespace Lexeme

variable {line : Nat} {fault : LexicalFault}

theorem exists_readsUpTo_of_readFrom
    (failed : readFrom line cs = .error fault) :
    ∃ before rest, cs = before ++ rest ∧ ReadsUpTo rest before ∧
      Unterminated fault.construct rest ∧
      fault.line = line + before.count '\n' := by
  fun_induction readFrom line cs with
  | case1 => cases failed
  | case2 line c cs construct endless =>
      cases failed
      exact ⟨[], c :: cs, rfl, .start, unterminated_of_measure endless, rfl⟩
  | case3 line c cs shape n measured text other later ih =>
      cases failed
      obtain ⟨before, rest, left, passed, endless, counted⟩ := ih later
      have within := (measured_of_measure measured).le_length
      have whole : cs = cs.take n ++ (before ++ rest) := by
        rw [← left, List.take_append_drop]
      have taken : Reading.measure c (cs.take n ++ (before ++ rest)) =
          .ok (shape, (cs.take n).length) := by
        rw [← whole, List.length_take_of_le within]
        exact measured
      refine ⟨c :: (cs.take n ++ before), rest, ?_, .lexeme taken passed,
        endless, ?_⟩
      · rw [List.cons_append, List.append_assoc, ← whole]
      · rw [counted, Nat.add_assoc, ← List.cons_append, List.count_append]
  | case4 line c cs shape n measured text lexemes later ih => cases failed

theorem readFrom_of_unterminated
    {before rest : List Char} (passed : ReadsUpTo rest before)
    (endless : Unterminated construct rest) (line : Nat) :
    readFrom line (before ++ rest) =
      .error ⟨construct, line + before.count '\n'⟩ := by
  induction passed generalizing line with
  | start =>
      cases rest with
      | nil => cases endless
      | cons c cs =>
          rw [List.nil_append, readFrom, endless.measure_eq]
          rfl
  | @lexeme c text before shape measured later ih =>
      have whole : c :: (text ++ before) ++ rest =
          c :: (text ++ (before ++ rest)) := by
        rw [List.cons_append, List.append_assoc]
      rw [whole, readFrom, measured]
      dsimp only
      rw [List.drop_left, List.take_left, ih, ← List.cons_append,
        List.count_append, Nat.add_assoc]

theorem readFrom_eq_error_iff :
    readFrom line cs = .error fault ↔
      ∃ before rest, cs = before ++ rest ∧ ReadsUpTo rest before ∧
        Unterminated fault.construct rest ∧
        fault.line = line + before.count '\n' := by
  constructor
  · exact exists_readsUpTo_of_readFrom
  · rintro ⟨before, rest, rfl, passed, endless, counted⟩
    rw [readFrom_of_unterminated passed endless, ← counted]

end Lexeme

end BusReference.Php
