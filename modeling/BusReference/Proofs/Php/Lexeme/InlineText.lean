import BusReference.Proofs.Php.Lexeme.Measures

/-!
# Text before the first opening tag

A source text is read as code from its first character on.  Between a closing
tag and the next opening one everything is dropped, but what stands before the
first opening tag is not: its quotes, comments and words are read as those of
code.  The main statement says for which texts this makes no difference,
whatever code follows.
-/

namespace BusReference.Php

open BusReference.Text.Blank (isBlank)
open Lexeme.Reading

namespace Lexeme

/-! ## Tokens of a text -/

/-- The tokens of a text, if it can be read. -/
def tokens? (cs : List Char) : Option (List Token) :=
  (read cs).toOption.map (·.filterMap token?)

/-- The line of the first character matters for faults only. -/
theorem toOption_readFrom (line other : Nat) (cs : List Char) :
    (readFrom line cs).toOption = (readFrom other cs).toOption := by
  fun_induction readFrom line cs generalizing other with
  | case1 => rw [readFrom]
  | case2 line c cs construct failed =>
      rw [readFrom, failed]
      rfl
  | case3 line c cs shape n measured text fault failed ih =>
      have later := ih (other + text.count '\n')
      rw [readFrom, measured]
      dsimp only
      rw [failed] at later
      cases again : readFrom (other + text.count '\n') (cs.drop n) with
      | error _ => rfl
      | ok lexemes =>
          rw [again] at later
          cases later
  | case4 line c cs shape n measured text lexemes done ih =>
      have later := ih (other + text.count '\n')
      rw [readFrom, measured]
      dsimp only
      rw [done] at later
      cases again : readFrom (other + text.count '\n') (cs.drop n) with
      | error _ =>
          rw [again] at later
          cases later
      | ok others =>
          rw [again] at later
          cases later
          rfl

theorem tokens?_nil : tokens? [] = some [] := by
  rw [tokens?, read, readFrom]
  rfl

theorem tokens?_of_measure_error
    {c : Char} {cs : List Char} {construct : Construct}
    (failed : measure c cs = .error construct) : tokens? (c :: cs) = none := by
  rw [tokens?, read, readFrom, failed]
  rfl

/-- The tokens of a text are that of its first lexeme, if it is one, and those
of what follows. -/
theorem tokens?_of_measure
    {c : Char} {cs : List Char} {shape : Shape} {n : Nat}
    (measured : measure c cs = .ok (shape, n)) :
    tokens? (c :: cs) =
      (tokens? (cs.drop n)).map
        ((token? ⟨shape, c :: cs.take n⟩).toList ++ ·) := by
  rw [tokens?, tokens?, read, read, readFrom, measured]
  dsimp only
  rw [toOption_readFrom 1 (1 + (c :: cs.take n).count '\n') (cs.drop n)]
  cases readFrom (1 + (c :: cs.take n).count '\n') (cs.drop n) with
  | error fault => rfl
  | ok lexemes =>
      cases made : token? ⟨shape, c :: cs.take n⟩ with
      | none => simp [Except.toOption, List.filterMap_cons_none made]
      | some t => simp [Except.toOption, List.filterMap_cons_some made]

theorem tokens?_of_dropped
    {c : Char} {cs : List Char} {shape : Shape} {n : Nat}
    (measured : measure c cs = .ok (shape, n))
    (dropped : token? ⟨shape, c :: cs.take n⟩ = none) :
    tokens? (c :: cs) = tokens? (cs.drop n) := by
  rw [tokens?_of_measure measured, dropped]
  cases tokens? (cs.drop n) <;> rfl

end Lexeme

open Lexeme
  (tokens? tokens?_nil tokens?_of_dropped tokens?_of_measure
    tokens?_of_measure_error)

/-! ## Opening tags -/

/-- A text without an opening tag, be it the one for code or the one for
output. -/
def IsUntagged (cs : List Char) : Prop :=
  ¬ openTag <:+: cs ∧ ¬ ['<', '?', '='] <:+: cs

instance (cs : List Char) : Decidable (IsUntagged cs) :=
  inferInstanceAs (Decidable (_ ∧ _))

/-- Code after its opening tag. -/
def opened (code : List Char) : List Char := openTag ++ ' ' :: code

theorem tokens?_opened (code : List Char) :
    tokens? (opened code) = tokens? code := by
  have tag : Lexeme.Reading.measure '<' ('?' :: 'p' :: 'h' :: 'p' :: ' ' :: code) =
      .ok (.openTag, 4) := by
    rw [Lexeme.Reading.measure, if_pos (by simp [openTag])]
  have blank : Lexeme.Reading.measure ' ' code = .ok (.blank, 0) := by
    simp [Lexeme.Reading.measure, openTag, isBlank]
  exact (tokens?_of_dropped tag rfl).trans (tokens?_of_dropped blank rfl)

/-- An opening tag does not start in front of another one that it overlaps. -/
theorem openTag_prefix_of_append
    {cs code : List Char} (nonempty : cs ≠ [])
    (starts : openTag <+: cs ++ opened code) : openTag <+: cs := by
  rcases cs with _ | ⟨a, _ | ⟨b, _ | ⟨c, _ | ⟨d, _ | ⟨e, cs⟩⟩⟩⟩⟩
  · exact absurd rfl nonempty
  all_goals simp [opened, openTag] at starts
  simpa [openTag] using starts

theorem not_prefix_openTag
    {c : Char} {cs code : List Char} (untagged : ¬ openTag <:+: c :: cs) :
    ¬ openTag <+: c :: (cs ++ opened code) := fun starts =>
  untagged (openTag_prefix_of_append (List.cons_ne_nil c cs) starts).isInfix

theorem inlineLength_append
    {cs : List Char} (untagged : ¬ openTag <:+: cs) (code : List Char) :
    inlineLength (cs ++ opened code) = cs.length := by
  induction cs with
  | nil => rfl
  | cons c cs ih =>
      have other : ¬ openTag <+: c :: (cs ++ opened code) :=
        not_prefix_openTag untagged
      rw [← List.isPrefixOf_iff_prefix] at other
      rw [List.cons_append, inlineLength, if_neg other,
        ih fun inside => untagged (inside.trans (List.suffix_cons c cs).isInfix)]
      rfl

/-! ## Dropped lexemes -/

section Measures

variable {c : Char} {cs : List Char} {n : Nat}

theorem measure_closingTag (cs : List Char) :
    Lexeme.Reading.measure '?' ('>' :: cs) =
      .ok (.inlineText, 1 + inlineLength cs) := by
  simp [Lexeme.Reading.measure, openTag]

theorem measure_blank (blank : isBlank c = true) :
    Lexeme.Reading.measure c cs = .ok (.blank, 0) := by
  have noTag : c ≠ '<' ∧ c ≠ '?' := by
    refine ⟨?_, ?_⟩
    all_goals
      rintro rfl
      cases blank
  simp [Lexeme.Reading.measure, openTag, blank, noTag, noTag.1.symm]

theorem measure_slashes (cs : List Char) :
    Lexeme.Reading.measure '/' ('/' :: cs) =
      .ok (.lineComment, lineLength ('/' :: cs)) := by
  simp [Lexeme.Reading.measure, openTag, isBlank]

theorem measure_hash (noAttribute : cs.head? ≠ some '[') :
    Lexeme.Reading.measure '#' cs = .ok (.lineComment, lineLength cs) := by
  simp [Lexeme.Reading.measure, openTag, isBlank, noAttribute]

theorem measure_comment (closed : commentLength cs = some n) :
    Lexeme.Reading.measure '/' ('*' :: cs) =
      .ok (if isDocComment n cs then .docComment else .blockComment,
        n + 1) := by
  simp [Lexeme.Reading.measure, openTag, isBlank, closed]
  rfl

theorem lineLength_append
    {body : List Char} (line : '\n' ∉ body) (rest : List Char) :
    lineLength (body ++ '\n' :: rest) = body.length := by
  have within : ∀ d ∈ body, (d != '\n') = true := by
    rintro d inside
    exact bne_iff_ne.mpr (ne_of_mem_of_not_mem inside line)
  rw [lineLength, runLength, List.takeWhile_append_of_pos within,
    List.takeWhile_cons_of_neg (by simp), List.append_nil]

theorem commentLength_append
    {body : List Char} (free : FreeOf body commentEnd commentEnd)
    (rest : List Char) :
    commentLength (body ++ commentEnd ++ rest) = some (body.length + 2) := by
  induction body with
  | nil => rfl
  | cons c body ih =>
      have later : FreeOf body commentEnd commentEnd := fun n inside =>
        free (n + 1) (Nat.succ_lt_succ inside)
      have other : ¬ commentEnd <+: c :: (body ++ commentEnd ++ rest) := by
        intro starts
        refine free 0 (Nat.succ_pos _)
          (List.prefix_of_prefix_length_le starts ?_ ?_)
        · exact ⟨rest, by simp⟩
        · simp [commentEnd]
      rw [List.cons_append, List.cons_append, commentLength_cons other,
        ih later]
      rfl

end Measures

/-! ## Texts that are passed over -/

instance (body mark rest : List Char) : Decidable (FreeOf body mark rest) :=
  inferInstanceAs (Decidable (∀ n < body.length, _))

/-- A blank, or a complete comment that is no doc comment; that of a line ends
with the line. -/
inductive PassedPiece : List Char → Prop
  | blank {c : Char} (blank : isBlank c = true) : PassedPiece [c]
  | slashes {body : List Char} (line : '\n' ∉ body) :
      PassedPiece ('/' :: '/' :: (body ++ ['\n']))
  | hash {body : List Char}
      (noAttribute : body.head? ≠ some '[') (line : '\n' ∉ body) :
      PassedPiece ('#' :: (body ++ ['\n']))
  | comment {body : List Char}
      (free : FreeOf body commentEnd commentEnd)
      (ordinary : body.head? ≠ some '*') :
      PassedPiece ('/' :: '*' :: (body ++ commentEnd))

/-- A text of such pieces, up to a closing tag or to its end. -/
inductive PassedOver : List Char → Prop
  | nil : PassedOver []
  | closingTag (text : List Char) : PassedOver ('?' :: '>' :: text)
  | piece {piece cs : List Char}
      (passed : PassedPiece piece) (later : PassedOver cs) :
      PassedOver (piece ++ cs)

theorem tokens?_blank
    {c : Char} (blank : isBlank c = true) (rest : List Char) :
    tokens? (c :: rest) = tokens? rest :=
  tokens?_of_dropped (measure_blank blank) rfl

namespace PassedPiece

variable {piece : List Char} (passed : PassedPiece piece)

include passed

theorem ne_nil : piece ≠ [] := by
  cases passed <;> exact List.cons_ne_nil _ _

theorem tokens?_append (rest : List Char) :
    tokens? (piece ++ rest) = tokens? rest := by
  have newline : tokens? ('\n' :: rest) = tokens? rest :=
    tokens?_blank (by decide) rest
  cases passed with
  | blank blank => exact tokens?_blank blank rest
  | @slashes body line =>
      have length : lineLength ('/' :: (body ++ '\n' :: rest)) =
          body.length + 1 := by
        rw [← List.cons_append, lineLength_append (by simpa using line)]
        rfl
      have measured := measure_slashes (body ++ '\n' :: rest)
      rw [List.cons_append, List.cons_append, List.append_assoc,
        List.singleton_append, tokens?_of_dropped measured rfl, length,
        List.drop_succ_cons, List.drop_left, newline]
  | @hash body noAttribute line =>
      have next : (body ++ '\n' :: rest).head? ≠ some '[' := by
        cases body with
        | nil => simp
        | cons d body => exact noAttribute
      rw [List.cons_append, List.append_assoc, List.singleton_append,
        tokens?_of_dropped (measure_hash next) rfl, lineLength_append line,
        List.drop_left, newline]
  | @comment body free ordinary =>
      have measured := measure_comment (commentLength_append free rest)
      have noDoc : isDocComment (body.length + 2)
          (body ++ commentEnd ++ rest) = false := by
        cases body with
        | nil => rfl
        | cons d body =>
            have other : d ≠ '*' := by simpa using ordinary
            simp [isDocComment, other]
      rw [noDoc] at measured
      rw [List.cons_append, List.cons_append,
        tokens?_of_dropped measured rfl, List.drop_succ_cons,
        List.drop_left' (by simp [commentEnd])]

end PassedPiece

/-- What stands between a closing tag and the next opening one is dropped. -/
theorem tokens?_closingTag
    {text : List Char} (untagged : ¬ openTag <:+: text) (code : List Char) :
    tokens? ('?' :: '>' :: (text ++ opened code)) = tokens? code := by
  rw [tokens?_of_dropped (measure_closingTag _) rfl,
    inlineLength_append untagged, Nat.add_comm, List.drop_succ_cons,
    List.drop_left, tokens?_opened]

theorem not_infix_of_append
    {pattern before after : List Char}
    (absent : ¬ pattern <:+: before ++ after) : ¬ pattern <:+: after :=
  fun inside => absent (inside.trans (List.suffix_append _ _).isInfix)

/-- A text that is passed over gives no tokens, whatever code follows. -/
theorem PassedOver.tokens?_append
    {cs : List Char} (passed : PassedOver cs) (untagged : ¬ openTag <:+: cs)
    (code : List Char) : tokens? (cs ++ opened code) = tokens? code := by
  induction passed with
  | nil => exact tokens?_opened code
  | closingTag text =>
      have absent : ¬ openTag <:+: ['?', '>'] ++ text := untagged
      exact tokens?_closingTag (not_infix_of_append absent) code
  | piece passed later ih =>
      rw [List.append_assoc, passed.tokens?_append,
        ih (not_infix_of_append untagged)]

/-! ## Texts that are not -/

/-- A comment that the code goes on with takes a name there along. -/
theorem tokens?_openComment
    {c : Char} {cs : List Char}
    (measured : Lexeme.Reading.measure c (cs ++ opened ['x']) =
      .ok (.lineComment, lineLength (cs ++ opened ['x'])))
    (line : '\n' ∉ cs) : tokens? (c :: (cs ++ opened ['x'])) = some [] := by
  have code : ∀ d ∈ opened ['x'], (d != '\n') = true := by
    simp [opened, openTag]
  have within : ∀ d ∈ cs ++ opened ['x'], (d != '\n') = true := by
    intro d inside
    rcases List.mem_append.mp inside with front | later
    · exact bne_iff_ne.mpr (ne_of_mem_of_not_mem front line)
    · exact code d later
  have whole : lineLength (cs ++ opened ['x']) =
      (cs ++ opened ['x']).length := by
    rw [lineLength, runLength, List.takeWhile_eq_self_iff.mpr within]
  rw [tokens?_of_dropped measured rfl, whole, List.drop_length, tokens?_nil]

/-- The end of a comment does not stand in the opening tag. -/
theorem exists_eq_append_commentEnd
    {cs body rest : List Char}
    (same : cs ++ opened [] = body ++ commentEnd ++ rest) :
    ∃ after, cs = body ++ commentEnd ++ after := by
  rcases List.append_eq_append_iff.mp same with
    ⟨early, whole, code⟩ | ⟨after, whole, -⟩
  · rcases List.eq_nil_or_concat early with rfl | ⟨front, last, rfl⟩
    · exact ⟨[], by rw [List.append_nil, whole, List.append_nil]⟩
    · -- the slash would be one of the characters of the tag
      have slash : last = '/' := by
        have ends := congrArg List.getLast? whole
        simpa [commentEnd] using ends.symm
      have inside : '/' ∈ opened [] := by
        rw [code, slash]
        simp
      exact absurd inside (by decide)
  · exact ⟨after, whole⟩

theorem dropped_of_no_tokens
    {c : Char} {cs : List Char} (none : tokens? (c :: cs) = some []) :
    ∃ shape n, Measured c cs shape n ∧
      Lexeme.token? ⟨shape, c :: cs.take n⟩ = .none := by
  cases measured : Lexeme.Reading.measure c cs with
  | error construct =>
      rw [tokens?_of_measure_error measured] at none
      cases none
  | ok read =>
      obtain ⟨shape, n⟩ := read
      refine ⟨shape, n, measured_of_measure measured, ?_⟩
      rw [tokens?_of_measure measured] at none
      obtain ⟨later, -, empty⟩ := Option.map_eq_some_iff.mp none
      simpa using (List.append_eq_nil_iff.mp empty).1

/-- The text starts with a piece that is passed over. -/
def StartsPassed (cs : List Char) : Prop :=
  ∃ piece after, cs = piece ++ after ∧ PassedPiece piece

section Starts

variable {cs : List Char}

theorem startsPassed_slashes
    (named : tokens? ('/' :: '/' :: (cs ++ opened ['x'])) ≠ some []) :
    StartsPassed ('/' :: '/' :: cs) := by
  by_cases ends : '\n' ∈ cs
  · obtain ⟨body, after, rfl, line⟩ := List.eq_append_cons_of_mem ends
    exact ⟨_, after, by simp, .slashes line⟩
  · have line : '\n' ∉ '/' :: cs := by simpa using ends
    exact absurd (tokens?_openComment (measure_slashes _) line) named

theorem startsPassed_hash
    (noAttribute : (cs ++ opened []).head? ≠ some '[')
    (named : tokens? ('#' :: (cs ++ opened ['x'])) ≠ some []) :
    StartsPassed ('#' :: cs) := by
  by_cases ends : '\n' ∈ cs
  · obtain ⟨body, after, rfl, line⟩ := List.eq_append_cons_of_mem ends
    refine ⟨_, after, by simp, .hash ?_ line⟩
    cases body with
    | nil => simp
    | cons d body => exact noAttribute
  · have next : (cs ++ opened ['x']).head? ≠ some '[' := by
      cases cs with
      | nil => decide
      | cons d cs => exact noAttribute
    exact absurd (tokens?_openComment (measure_hash next) ends) named

theorem startsPassed_comment
    {n : Nat} (length : commentLength (cs ++ opened []) = some n)
    (noDoc : isDocComment n (cs ++ opened []) = false) :
    StartsPassed ('/' :: '*' :: cs) := by
  obtain ⟨body, rest, same, rfl, free⟩ := exists_of_commentLength length
  obtain ⟨after, rfl⟩ := exists_eq_append_commentEnd same
  refine ⟨_, after, by simp, .comment free.of_append ?_⟩
  cases body with
  | nil => simp
  | cons d body => simpa [isDocComment] using noDoc

end Starts

/-- If neither no code nor a name leads to other tokens than without the text,
the text starts with a closing tag or with a piece that is passed over. -/
theorem startsPassed_of_tokens?
    {c : Char} {cs : List Char} (untagged : ¬ openTag <:+: c :: cs)
    (empty : tokens? (c :: (cs ++ opened [])) = some [])
    (named : tokens? (c :: (cs ++ opened ['x'])) ≠ some []) :
    (∃ text, c :: cs = '?' :: '>' :: text) ∨ StartsPassed (c :: cs) := by
  obtain ⟨shape, n, measured, dropped⟩ := dropped_of_no_tokens empty
  generalize whole : cs ++ opened [] = text at measured dropped
  cases measured with
  | openTag opens =>
      rw [← whole] at opens
      exact absurd opens (not_prefix_openTag untagged)
  | inlineText closes next =>
      subst closes
      cases cs with
      | nil => cases whole.trans next
      | cons d cs =>
          cases whole.trans next
          exact .inl ⟨cs, rfl⟩
  | blank blank => exact .inr ⟨[c], cs, rfl, .blank blank⟩
  | slashes mark second =>
      subst mark
      rw [← whole] at second
      cases cs with
      | nil => cases second
      | cons d cs =>
          cases second
          exact .inr (startsPassed_slashes named)
  | hash mark noAttribute =>
      subst mark
      rw [← whole] at noAttribute
      exact .inr (startsPassed_hash noAttribute named)
  | @comment after n mark next length =>
      subst mark
      cases cs with
      | nil => cases whole.trans next
      | cons d cs =>
          cases whole.trans next
          split at dropped
          · cases dropped
          · rename_i noDoc
            exact .inr (startsPassed_comment length (Bool.eq_false_iff.mpr noDoc))
  | _ => cases dropped

/-- Only texts that are passed over give no tokens whatever code follows. -/
theorem passedOver_of_tokens?
    {cs : List Char} (untagged : ¬ openTag <:+: cs)
    (same : ∀ code, tokens? (cs ++ opened code) = tokens? code) :
    PassedOver cs := by
  induction bound : cs.length using Nat.strongRecOn generalizing cs with
  | ind size ih =>
      subst bound
      cases cs with
      | nil => exact .nil
      | cons c cs =>
          have named : tokens? (c :: cs ++ opened ['x']) ≠ some [] := by
            rw [same]
            decide +kernel
          rcases startsPassed_of_tokens? untagged
              ((same []).trans tokens?_nil) named with
            ⟨text, starts⟩ | ⟨piece, after, starts, passed⟩
          · rw [starts]
            exact .closingTag text
          · rw [starts] at untagged same ih ⊢
            refine .piece passed (ih after.length ?_
              (not_infix_of_append untagged) (fun code => ?_) rfl)
            · have := List.length_pos_iff.mpr passed.ne_nil
              rw [List.length_append]
              omega
            · have whole := same code
              rwa [List.append_assoc, passed.tokens?_append] at whole

/-! ## The main statement -/

theorem toOption_read (source : String) :
    (Token.read source).toOption = tokens? source.toList := by
  rw [Token.read, tokens?]
  cases Lexeme.read source.toList <;> rfl

theorem toList_opened (code : String) :
    ("<?php " ++ code).toList = opened code.toList :=
  String.toList_append

/--
Text before the first opening tag makes no difference to the code that follows,
whatever that is, exactly if it is passed over.  After a closing tag, wherever
it stands, no text does.
-/
theorem read_beforeTag_iff
    {text : String} (untagged : IsUntagged text.toList) :
    ((∀ code : String,
        (Token.read (text ++ ("<?php " ++ code))).toOption =
          (Token.read ("<?php " ++ code)).toOption) ↔
      PassedOver text.toList) ∧
    ∀ (line : Nat) (code : String),
      (Lexeme.readFrom line
          ('?' :: '>' :: (text ++ ("<?php " ++ code)).toList)).toOption.map
            (·.filterMap Lexeme.token?) =
        (Token.read ("<?php " ++ code)).toOption := by
  have whole : ∀ code : String, (text ++ ("<?php " ++ code)).toList =
      text.toList ++ opened code.toList := by
    intro code
    rw [String.toList_append, toList_opened]
  refine ⟨⟨fun same => ?_, fun passed code => ?_⟩, fun line code => ?_⟩
  · refine passedOver_of_tokens? untagged.1 fun code => ?_
    have given := same (String.ofList code)
    rwa [toOption_read, toOption_read, whole, toList_opened,
      String.toList_ofList, tokens?_opened] at given
  · rw [toOption_read, toOption_read, whole, toList_opened,
      passed.tokens?_append untagged.1, tokens?_opened]
  · rw [toOption_read, whole, toList_opened, tokens?_opened,
      ← tokens?_closingTag untagged.1, Lexeme.toOption_readFrom line 1]
    rfl

/-- A page whose text is passed over, although it has quotes behind a tag. -/
def passedPage : String := "\n# it's\n/* <<<A */ ?><p class=\"a'>\n"

theorem read_beforeTag_iff_passedPage :
    IsUntagged passedPage.toList ∧
      ∀ code : String,
        (Token.read (passedPage ++ ("<?php " ++ code))).toOption =
          (Token.read ("<?php " ++ code)).toOption := by
  have untagged : IsUntagged passedPage.toList := by decide +kernel
  refine ⟨untagged, (read_beforeTag_iff untagged).1.mpr ?_⟩
  have line : PassedPiece ('#' :: (" it's".toList ++ ['\n'])) :=
    .hash (by decide) (by decide)
  have comment :
      PassedPiece ('/' :: '*' :: (" <<<A ".toList ++ ['*', '/'])) :=
    .comment (by decide) (by decide)
  exact .piece (.blank (c := '\n') (by decide))
    (.piece line (.piece comment
      (.piece (.blank (c := ' ') (by decide)) (.closingTag _))))

/-- The quote of a text before the tag opens a string, and a word of it is a
token. -/
theorem read_quoteBeforeTag :
    IsUntagged "it's ".toList ∧
      Token.read ("it's " ++ ("<?php " ++ "A")) = .error ⟨.string, 1⟩ ∧
      IsUntagged "it is ".toList ∧
      Token.read ("it is " ++ ("<?php " ++ "A")) =
        .ok [.name "it", .name "is", .name "A"] ∧
      Token.read ("<?php " ++ "A") = .ok [.name "A"] := by
  decide +kernel

end BusReference.Php
