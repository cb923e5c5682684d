import BusReference.Proofs.Php.Joined.Reading

/-!
# Joined tokens that merge

Where the tokens of a source text stand apart, their spellings may come next to
each other in the text of an expression and be read as something else: two
slashes as the start of a comment, a number and a dot as one number.  The main
statement says for which tokens the text is read as what it was made of.
-/

namespace BusReference.Php

open Lexeme (tokens?)
open Lexeme.Reading

namespace Token

/-! ## Tokens that merge -/

/-- What the first token is read as in the joined text takes in characters of
those after it. -/
inductive Merges : List Token → Prop
  | dollar {t : Token} {ts : List Token} (name : t.StartsWith isNameStart) :
      Merges (.punct '$' :: t :: ts)
  | backslash {t : Token} {ts : List Token} (name : t.StartsWith isNameStart) :
      Merges (.punct '\\' :: t :: ts)
  /-- A name goes on after a backslash, or before a group of imports. -/
  | name {text : String} {t : Token} {ts : List Token}
      (next : t.StartsWith fun c => isNameStart c || c == '\x7b') :
      Merges (.name text :: .punct '\\' :: t :: ts)
  | number {text : String} {t : Token} {ts : List Token}
      (dots : t = .punct '.' ∨ t = .ellipsis) :
      Merges (.number text :: t :: ts)
  | decimal {t : Token} {ts : List Token} (digit : t.StartsWith Char.isDigit) :
      Merges (.punct '.' :: t :: ts)
  | dots {ts : List Token} : Merges (.punct '.' :: .ellipsis :: ts)
  | dot {t : Token} {ts : List Token} (next : t.StartsWith (· == '.')) :
      Merges (.punct '.' :: .punct '.' :: t :: ts)
  | comment {c : Char} {ts : List Token} (opens : c = '/' ∨ c = '*') :
      Merges (.punct '/' :: .punct c :: ts)
  | closingTag {ts : List Token} : Merges (.punct '?' :: .punct '>' :: ts)
  | openingTag {text : String} {ts : List Token}
      (php : ['p', 'h', 'p'] <+: text.toList) :
      Merges (.punct '<' :: .punct '?' :: .name text :: ts)
  | heredoc {t : Token} {ts : List Token}
      (label : opensLabel t.spelling.toList = true) :
      Merges (.punct '<' :: .punct '<' :: .punct '<' :: t :: ts)

/-- Somewhere among the tokens there are some that merge. -/
def Fuses (ts : List Token) : Prop := ∃ us, us <:+ ts ∧ Merges us

/-! ## Words -/

section Words

variable {ts : List Token} {text : String}

theorem merges_number_iff :
    Merges (.number text :: ts) ↔
      ∃ u us, ts = u :: us ∧ (u = .punct '.' ∨ u = .ellipsis) := by
  constructor
  · rintro (_ | _)
    rename_i u us dots
    exact ⟨u, us, rfl, dots⟩
  · rintro ⟨u, us, rfl, dots⟩
    exact .number dots

theorem merges_name_iff :
    Merges (.name text :: ts) ↔
      ∃ u us, ts = .punct '\\' :: u :: us ∧
        u.StartsWith fun c => isNameStart c || c == '\x7b' := by
  constructor
  · rintro (_ | _)
    rename_i u us next
    exact ⟨u, us, rfl, next⟩
  · rintro ⟨u, us, rfl, next⟩
    exact .name next

/-- A number goes on into dots. -/
theorem stopsAt_isNumberChar_joined_iff
    (proper : ∀ u ∈ ts, u.IsProper) :
    StopsAt isNumberChar (joined true ts) ↔ ¬ Merges (.number text :: ts) := by
  rw [merges_number_iff]
  cases ts with
  | nil => exact iff_of_true rfl nofun
  | cons u us =>
      have first := proper u List.mem_cons_self
      rw [stopsAt_joined_true_iff rfl first]
      cases word : u.isWord with
      | true =>
          refine iff_of_true (.inl rfl) ?_
          rintro ⟨_, _, ⟨⟩, rfl | rfl⟩ <;> cases word
      | false =>
          rcases first.cases_of_not_isWord word with rfl | rfl | ⟨c, rfl, mark⟩
          · refine iff_of_true (.inr Bool.false_ne_true) ?_
            rintro ⟨_, _, ⟨⟩, other | other⟩ <;> cases other
          · refine iff_of_false ?_ (not_not_intro ⟨_, _, rfl, .inr rfl⟩)
            rintro (other | stops)
            · cases other
            · exact stops rfl
          · rw [StartsWith, toList_spelling_punct, List.head?_cons,
              Option.any_some, mark.isNumberChar_eq]
            simp

/-- A name goes on after a backslash. -/
theorem nameLength_joined_eq_zero_iff
    (proper : ∀ u ∈ ts, u.IsProper) :
    nameLength (joined true ts) = 0 ↔ ¬ Merges (.name text :: ts) := by
  rw [merges_name_iff]
  cases ts with
  | nil => exact iff_of_true rfl nofun
  | cons u us =>
      rw [List.forall_mem_cons] at proper
      rw [joined_cons proper.1.ne_docComment, Bool.true_and]
      cases word : u.isWord with
      | true =>
          refine iff_of_true ?_ ?_
          · rw [if_pos rfl, List.singleton_append, nameLength_cons]
            rfl
          · rintro ⟨_, _, ⟨⟩, _⟩
            cases word
      | false =>
          rw [if_neg Bool.false_ne_true, List.nil_append]
          rcases proper.1.cases_of_not_isWord word with
            rfl | rfl | ⟨c, rfl, mark⟩
          · exact iff_of_true (nameLength_cons _ _) nofun
          · exact iff_of_true (nameLength_cons _ _) nofun
          · have noName : isNameChar c = false := by
              simp [isNameChar, mark.noDigit, mark.noLetter]
            rw [toList_spelling_punct, List.singleton_append, nameLength_cons,
              noName, Bool.false_or, ite_eq_right_iff, Bool.and_eq_true,
              beq_iff_eq, any_head?_joined_iff proper.2]
            have same : (c = '\\' ∧ ∃ u vs, us = u :: vs ∧
                u.StartsWith fun d => isNameStart d || d == '\x7b') ↔
                  ∃ u vs, Token.punct c :: us = .punct '\\' :: u :: vs ∧
                    u.StartsWith fun d => isNameStart d || d == '\x7b' := by
              constructor
              · rintro ⟨rfl, u, vs, rfl, next⟩
                exact ⟨u, vs, rfl, next⟩
              · rintro ⟨u, vs, ⟨⟩, next⟩
                exact ⟨rfl, u, vs, rfl, next⟩
            rw [same]
            exact imp_congr_right fun _ => iff_of_false (Nat.succ_ne_zero _) id

end Words

/-! ## Marks -/

section Marks

variable {c : Char} {rest : List Char} {ts : List Token}

theorem merges_dollar_iff :
    Merges (.punct '$' :: ts) ↔
      ∃ u us, ts = u :: us ∧ u.StartsWith isNameStart := by
  constructor
  · intro merges
    cases merges with
    | dollar name => exact ⟨_, _, rfl, name⟩
  · rintro ⟨u, us, rfl, name⟩
    exact .dollar name

theorem merges_backslash_iff :
    Merges (.punct '\\' :: ts) ↔
      ∃ u us, ts = u :: us ∧ u.StartsWith isNameStart := by
  constructor
  · intro merges
    cases merges with
    | backslash name => exact ⟨_, _, rfl, name⟩
  · rintro ⟨u, us, rfl, name⟩
    exact .backslash name

theorem merges_slash_iff :
    Merges (.punct '/' :: ts) ↔
      ∃ c us, ts = .punct c :: us ∧ (c = '/' ∨ c = '*') := by
  constructor
  · intro merges
    cases merges with
    | comment opens => exact ⟨_, _, rfl, opens⟩
  · rintro ⟨c, us, rfl, opens⟩
    exact .comment opens

theorem merges_question_iff :
    Merges (.punct '?' :: ts) ↔ ∃ us, ts = .punct '>' :: us := by
  constructor
  · intro merges
    cases merges with
    | closingTag => exact ⟨_, rfl⟩
  · rintro ⟨us, rfl⟩
    exact .closingTag

theorem merges_dot_iff :
    Merges (.punct '.' :: ts) ↔
      (∃ u us, ts = u :: us ∧ u.StartsWith Char.isDigit) ∨
        (∃ us, ts = .ellipsis :: us) ∨
          ∃ u us, ts = .punct '.' :: u :: us ∧ u.StartsWith (· == '.') := by
  constructor
  · intro merges
    cases merges with
    | decimal digit => exact .inl ⟨_, _, rfl, digit⟩
    | dots => exact .inr (.inl ⟨_, rfl⟩)
    | dot next => exact .inr (.inr ⟨_, _, rfl, next⟩)
  · rintro (⟨u, us, rfl, digit⟩ | ⟨us, rfl⟩ | ⟨u, us, rfl, next⟩)
    · exact .decimal digit
    · exact .dots
    · exact .dot next

theorem merges_arrow_iff :
    Merges (.punct '<' :: ts) ↔
      (∃ text us, ts = .punct '?' :: .name text :: us ∧
          ['p', 'h', 'p'] <+: text.toList) ∨
        ∃ u us, ts = .punct '<' :: .punct '<' :: u :: us ∧
          opensLabel u.spelling.toList = true := by
  constructor
  · intro merges
    cases merges with
    | openingTag php => exact .inl ⟨_, _, rfl, php⟩
    | heredoc label => exact .inr ⟨_, _, rfl, label⟩
  · rintro (⟨text, us, rfl, php⟩ | ⟨u, us, rfl, label⟩)
    · exact .openingTag php
    · exact .heredoc label

/-- Dots that come next to each other. -/
theorem dots_prefix_joined_iff (proper : ∀ u ∈ ts, u.IsProper) :
    ['.', '.'] <+: joined false ts ↔
      (∃ us, ts = .ellipsis :: us) ∨
        ∃ u us, ts = .punct '.' :: u :: us ∧ u.StartsWith (· == '.') := by
  constructor
  · intro dots
    obtain ⟨after, text⟩ := dots
    have head : (joined false ts).head? = some '.' := by rw [← text]; rfl
    obtain ⟨u, us, rfl, starts⟩ := (head?_joined_iff proper).mp head
    rw [List.forall_mem_cons] at proper
    rcases proper.1.cases_of_dot starts with rfl | rfl | ⟨d, cs, rfl, digit⟩
    · rw [joined_punct] at text
      have next : (joined false us).head? = some '.' := by
        rw [← (List.cons.inj text).2]
        rfl
      obtain ⟨v, vs, rfl, second⟩ := (head?_joined_iff proper.2).mp next
      exact .inr ⟨v, vs, rfl, startsWith_beq_iff.mpr second⟩
    · exact .inl ⟨us, rfl⟩
    · rw [joined_false_cons proper.1.ne_docComment, toList_spelling_number] at text
      obtain rfl : '.' = d := (List.cons.inj (List.cons.inj text).2).1
      cases digit
  · rintro (⟨us, rfl⟩ | ⟨u, us, rfl, next⟩)
    · rw [joined_false_cons (by simp)]
      exact ⟨'.' :: joined false us, rfl⟩
    · rw [List.forall_mem_cons] at proper
      have second : (joined false (u :: us)).head? = some '.' :=
        (head?_joined_iff proper.2).mpr ⟨u, us, rfl, startsWith_beq_iff.mp next⟩
      obtain ⟨after, text⟩ := List.head?_eq_some_iff.mp second
      exact ⟨after, by rw [joined_punct, text]; rfl⟩

theorem openTag_prefix_joined_iff (proper : ∀ u ∈ ts, u.IsProper) :
    ['?', 'p', 'h', 'p'] <+: joined false ts ↔
      ∃ text us, ts = .punct '?' :: .name text :: us ∧
        ['p', 'h', 'p'] <+: text.toList := by
  have within : ∀ (text : String) (us : List Token), (∀ u ∈ us, u.IsProper) →
      (['p', 'h', 'p'] <+: joined false (.name text :: us) ↔
        ['p', 'h', 'p'] <+: text.toList) := by
    intro text us proper
    have letters : ∀ d ∈ ['p', 'h', 'p'], isNameChar d = true := by
      simp only [List.forall_mem_cons, List.not_mem_nil, false_implies,
        implies_true, and_true]
      decide
    rw [joined_false_cons (by simp)]
    exact prefix_append_iff_of_stopsAt letters (stopsAt_isNameChar_joined proper)
  constructor
  · rintro ⟨after, text⟩
    have head : (joined false ts).head? = some '?' := by rw [← text]; rfl
    obtain ⟨us, rfl⟩ :=
      (head?_joined_punct_iff proper (by decide) (by decide)).mp head
    rw [List.forall_mem_cons] at proper
    rw [joined_punct] at text
    have php : ['p', 'h', 'p'] ++ after = joined false us :=
      (List.cons.inj text).2
    have letter : (joined false us).head? = some 'p' := by rw [← php]; rfl
    obtain ⟨u, vs, rfl, starts⟩ := (head?_joined_iff proper.2).mp letter
    rw [List.forall_mem_cons] at proper
    obtain ⟨cs, rfl⟩ := proper.2.1.exists_name starts (by decide)
    exact ⟨_, vs, rfl, (within _ vs proper.2.2).mp ⟨after, php⟩⟩
  · rintro ⟨text, us, rfl, php⟩
    rw [List.forall_mem_cons, List.forall_mem_cons] at proper
    rw [joined_punct, List.cons_prefix_cons]
    exact ⟨rfl, (within text us proper.2.2).mpr php⟩

/-- The label at the start of joined tokens stands in the first one. -/
theorem opensLabel_joined_iff (proper : ∀ u ∈ ts, u.IsProper) :
    opensLabel (joined false ts) = true ↔
      ∃ u us, ts = u :: us ∧ opensLabel u.spelling.toList = true := by
  have single : ∀ u us, ts = u :: us →
      opensLabel (joined false ts) = opensLabel u.spelling.toList := by
    rintro u us rfl
    have first := proper u List.mem_cons_self
    rw [joined_false_cons first.ne_docComment]
    obtain ⟨c, cs, spelled, -⟩ := first.exists_spelling
    cases cs with
    | nil =>
        have noQuote : (c == '\'' || c == '"') = false := by
          rw [Bool.eq_false_iff]
          intro quote
          refine first.not_isQuote spelled ?_
          rw [Bool.or_eq_true, beq_iff_eq, beq_iff_eq] at quote
          exact quote.imp_right .inl
        rw [spelled, List.singleton_append, opensLabel, opensLabel, noQuote]
        rfl
    | cons d cs => rw [spelled]; rfl
  cases ts with
  | nil =>
      refine iff_of_false Bool.false_ne_true ?_
      rintro ⟨u, us, none, -⟩
      cases none
  | cons u us =>
      rw [single u us rfl]
      constructor
      · exact fun label => ⟨u, us, rfl, label⟩
      · rintro ⟨_, _, ⟨⟩, label⟩
        exact label

theorem stopsAt_isIndent_joined (proper : ∀ u ∈ ts, u.IsProper) :
    StopsAt isIndent (joined false ts) := by
  cases ts with
  | nil => rfl
  | cons u us =>
      have first := proper u List.mem_cons_self
      obtain ⟨c, cs, spelled, notBlank⟩ := first.exists_spelling
      rw [StopsAt, head?_joined_false first, spelled, List.head?_cons,
        Option.any_some, Bool.eq_false_iff]
      intro indent
      rcases (Bool.or_eq_true _ _).mp indent with blank | blank
      · rw [eq_of_beq blank] at notBlank
        cases notBlank
      · rw [eq_of_beq blank] at notBlank
        cases notBlank

/-- Two arrows and a label after a third one. -/
theorem arrows_joined_iff (proper : ∀ u ∈ ts, u.IsProper) :
    (∀ after, joined false ts = '<' :: '<' :: after →
      heredocLength? after = none) ↔
    ¬ ∃ u us, ts = .punct '<' :: .punct '<' :: u :: us ∧
      opensLabel u.spelling.toList = true := by
  have noLabel : ∀ after, heredocLength? ('<' :: after) = none := by
    intro after
    have stops : StopsAt isIndent ('<' :: after) := rfl
    exact (heredocLength?_eq_none_iff stops).mpr Bool.false_ne_true
  constructor
  · rintro none ⟨u, us, rfl, label⟩
    simp only [List.forall_mem_cons] at proper
    have later := none (joined false (u :: us)) (by rw [joined_punct, joined_punct])
    have others : ∀ v ∈ u :: us, v.IsProper := List.forall_mem_cons.mpr proper.2.2
    rw [heredocLength?_eq_none_iff (stopsAt_isIndent_joined others)] at later
    exact later ((opensLabel_joined_iff others).mpr ⟨u, us, rfl, label⟩)
  · intro apart after text
    have head : (joined false ts).head? = some '<' := by rw [text]; rfl
    obtain ⟨u, us, rfl, starts⟩ := (head?_joined_iff proper).mp head
    rw [List.forall_mem_cons] at proper
    rcases proper.1.cases_of_arrow starts with rfl | ⟨cs, rfl⟩
    · rw [joined_punct] at text
      have rest : joined false us = '<' :: after := (List.cons.inj text).2
      have next : (joined false us).head? = some '<' := by rw [rest]; rfl
      obtain ⟨v, vs, rfl, second⟩ := (head?_joined_iff proper.2).mp next
      rw [List.forall_mem_cons] at proper
      rcases proper.2.1.cases_of_arrow second with rfl | ⟨cs, rfl⟩
      · rw [joined_punct] at rest
        obtain rfl : joined false vs = after := (List.cons.inj rest).2
        rw [heredocLength?_eq_none_iff (stopsAt_isIndent_joined proper.2.2),
          opensLabel_joined_iff proper.2.2]
        rintro ⟨w, ws, rfl, label⟩
        exact apart ⟨w, ws, rfl, label⟩
      · rw [joined_false_cons proper.2.1.ne_docComment,
          toList_spelling_literal] at rest
        obtain rfl := (List.cons.inj rest).2
        exact noLabel _
    · rw [joined_false_cons proper.1.ne_docComment,
        toList_spelling_literal] at text
      obtain rfl := (List.cons.inj (List.cons.inj text).2).2
      exact noLabel _

theorem isReadBefore_punct_joined_iff
    (mark : IsMark c) (proper : ∀ u ∈ ts, u.IsProper) :
    (Token.punct c).IsReadBefore (joined false ts) ↔
      ¬ Merges (.punct c :: ts) := by
  rw [isReadBefore_punct_iff]
  by_cases special : c ∈ ['$', '\\', '/', '?', '.', '<']
  · simp only [List.mem_cons, List.not_mem_nil, or_false] at special
    rcases special with rfl | rfl | rfl | rfl | rfl | rfl
    · rw [measure_dollar_iff, merges_dollar_iff, any_head?_joined_iff proper]
    · rw [measure_backslash_iff, merges_backslash_iff,
        any_head?_joined_iff proper]
    · rw [measure_slash_iff, merges_slash_iff, ← not_or,
        head?_joined_punct_iff proper (by decide) (by decide),
        head?_joined_punct_iff proper (by decide) (by decide)]
      refine not_congr ⟨?_, ?_⟩
      · rintro (⟨us, rfl⟩ | ⟨us, rfl⟩)
        · exact ⟨_, us, rfl, .inl rfl⟩
        · exact ⟨_, us, rfl, .inr rfl⟩
      · rintro ⟨c, us, rfl, rfl | rfl⟩
        · exact .inl ⟨us, rfl⟩
        · exact .inr ⟨us, rfl⟩
    · rw [measure_question_iff, merges_question_iff, ne_eq,
        head?_joined_punct_iff proper (by decide) (by decide)]
    · rw [measure_dot_iff, merges_dot_iff, dots_prefix_joined_iff proper,
        any_head?_joined_iff proper, ← not_or, or_comm]
    · rw [measure_arrow_iff, merges_arrow_iff, openTag_prefix_joined_iff proper,
        arrows_joined_iff proper, ← not_or]
  · refine iff_of_true (measure_mark mark special _) fun merges => ?_
    cases merges <;> simp at special

end Marks

/-! ## Runs of tokens -/

section Runs

variable {t : Token} {ts : List Token}

/-- A token is read before those after it if it does not merge with them. -/
theorem isReadBefore_joined_iff
    (legible : t.Legible) (others : ∀ u ∈ ts, u.IsProper) :
    t.IsReadBefore (joined t.isWord ts) ↔ ¬ Merges (t :: ts) := by
  cases legible with
  | name visible starts whole =>
      rw [isReadBefore_name_iff visible starts whole]
      exact nameLength_joined_eq_zero_iff others
  | dollar starts letters =>
      exact iff_of_true
        (isReadBefore_variable starts letters (stopsAt_isNameChar_joined others))
        nofun
  | quoted mark escaped =>
      exact iff_of_true (isReadBefore_quoted mark escaped _) nofun
  | heredoc heredoc =>
      exact iff_of_true
        (isReadBefore_heredoc heredoc (stopsAt_isNameChar_joined others)) nofun
  | number starts letters =>
      rw [isReadBefore_number_iff starts letters]
      exact stopsAt_isNumberChar_joined_iff others
  | attributeOpen => exact iff_of_true (isReadBefore_attributeOpen _) nofun
  | ellipsis => exact iff_of_true (isReadBefore_ellipsis _) nofun
  | punct mark => exact isReadBefore_punct_joined_iff mark others

theorem fuses_cons_iff : Fuses (t :: ts) ↔ Merges (t :: ts) ∨ Fuses ts := by
  constructor
  · rintro ⟨us, suffix, merges⟩
    rcases List.suffix_cons_iff.mp suffix with rfl | inside
    · exact .inl merges
    · exact .inr ⟨us, inside, merges⟩
  · rintro (merges | ⟨us, inside, merges⟩)
    · exact ⟨_, List.suffix_rfl, merges⟩
    · exact ⟨us, inside.trans (List.suffix_cons _ _), merges⟩

theorem not_fuses_nil : ¬ Fuses [] := by
  rintro ⟨us, suffix, merges⟩
  rw [List.suffix_nil] at suffix
  subst suffix
  cases merges

/-- Legible tokens are read as they are joined if none of them fuse. -/
theorem tokens?_joined_iff
    (legible : ∀ t ∈ ts, t.Legible) (afterWord : Bool) :
    tokens? (joined afterWord ts) = some ts ↔ ¬ Fuses ts := by
  induction ts generalizing afterWord with
  | nil => exact iff_of_true Lexeme.tokens?_nil not_fuses_nil
  | cons t ts ih =>
      rw [List.forall_mem_cons] at legible
      have others : ∀ u ∈ ts, u.IsProper := fun u inside =>
        (legible.2 u inside).isProper
      rw [tokens?_joined_cons_iff legible.1.isProper others,
        isReadBefore_joined_iff legible.1 others, ih legible.2,
        fuses_cons_iff, not_or]

end Runs

theorem read_eq_ok_iff {source : String} {ts : List Token} :
    read source = .ok ts ↔ tokens? source.toList = some ts := by
  rw [read, tokens?]
  cases Lexeme.read source.toList with
  | error fault =>
      constructor
      · intro done
        cases done
      · intro done
        cases done
  | ok lexemes =>
      simp [Except.map, Except.toOption]

/--
The text of a run of tokens of a source text, without its doc comments, is read
as these tokens exactly if none of them fuse.
-/
theorem read_join_iff
    {source : String} {all ts : List Token} (done : read source = .ok all)
    (run : ts <:+: all)
    (noGroup : ∀ text, .name text ∈ ts → text.toList.getLast? ≠ some '\\') :
    read (join ts) = .ok (withoutDocs ts) ↔ ¬ Fuses (withoutDocs ts) := by
  have legible : ∀ t ∈ withoutDocs ts, t.Legible := by
    intro t member
    obtain ⟨inside, kept⟩ := List.mem_filter.mp member
    refine legible_of_read done (run.subset inside) ?_ ?_
    · rintro text rfl
      cases kept
    · rintro text rfl
      exact noGroup text inside
  rw [← join_withoutDocs, read_eq_ok_iff]
  exact tokens?_joined_iff legible false

/-- A default value with a doc comment in it, in which nothing fuses. -/
theorem read_join_iff_union :
    ¬ Fuses [.name "A", .punct ':', .punct ':', .name "B", .punct '|',
      .number "2.5", .punct '*', .number "3"] := by
  have done : read "<?php A::B | /** d */ 2.5 * 3" =
      .ok [.name "A", .punct ':', .punct ':', .name "B", .punct '|',
        .docComment "/** d */", .number "2.5", .punct '*', .number "3"] := by
    decide +kernel
  refine (read_join_iff done List.infix_rfl ?_).mp (by decide +kernel)
  intro text member
  have named : text = "A" ∨ text = "B" := by simpa using member
  rcases named with rfl | rfl <;> decide +kernel

/-- A number before a dot takes it along, and two slashes around a comment make
one of their own. -/
theorem read_join_spaced :
    read "<?php 1 .'a'" = .ok [.number "1", .punct '.', .literal "'a'"] ∧
      read (join [.number "1", .punct '.', .literal "'a'"]) =
        .ok [.number "1.", .literal "'a'"] ∧
      read "<?php 4 / /* d */ / 2" =
        .ok [.number "4", .punct '/', .punct '/', .number "2"] ∧
      read (join [.number "4", .punct '/', .punct '/', .number "2"]) =
        .ok [.number "4"] ∧
      (SourceFile.read "<?php class A\x7bfunction f($x=1 .'a');\x7d" none).map
          (·.flatMap fun d => d.methods.flatMap fun m =>
            m.parameters.map (·.defaultValue)) =
        .ok [some (.expression "1.'a'")] := by
  decide +kernel

end Token

end BusReference.Php
