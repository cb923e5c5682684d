import BusReference.Proofs.Php.Lexeme.Surroundings
import BusReference.Proofs.Php.Remainder

/-!
# Legible tokens

A token is legible if it is read as itself in a text of its own.  The tokens of
a source text are legible, except doc comments, which are left out of the texts
of expressions, and names that end in a backslash before a brace.  For each kind
of token it is told before which texts it is read.
-/

namespace BusReference.Php

open BusReference.Text.Blank (isBlank)
open Lexeme.Reading

/-! ## Tokens that are read alone -/

/-- A character that is a token by itself where nothing else goes on with it. -/
structure IsMark (c : Char) : Prop where
  visible : isBlank c = false
  notHash : c ≠ '#'
  noQuote : ¬ IsQuote c
  noDigit : c.isDigit = false
  noLetter : isNameStart c = false

/-- A token that is read as itself in a text of its own. -/
inductive Token.Legible : Token → Prop
  | name {c : Char} {cs : List Char}
      (visible : isBlank c = false)
      (starts : isNameStart c = true ∨
        c = '\\' ∧ cs.head?.any isNameStart = true)
      (whole : nameLength cs = cs.length) :
      Legible (.name (String.ofList (c :: cs)))
  | dollar {c : Char} {cs : List Char}
      (starts : isNameStart c = true)
      (letters : ∀ d ∈ c :: cs, isNameChar d = true) :
      Legible (.variable (String.ofList (c :: cs)))
  | quoted {quote : Char} {body : List Char}
      (mark : IsQuote quote) (escaped : Escaped quote body) :
      Legible (.literal (String.ofList (quote :: (body ++ [quote]))))
  | heredoc {text : List Char} (heredoc : HeredocText text) :
      Legible (.literal (String.ofList ('<' :: '<' :: '<' :: text)))
  | number {c : Char} {cs : List Char}
      (starts : c.isDigit = true ∨ c = '.' ∧ cs.head?.any Char.isDigit = true)
      (letters : ∀ d ∈ cs, isNumberChar d = true) :
      Legible (.number (String.ofList (c :: cs)))
  | attributeOpen : Legible .attributeOpen
  | ellipsis : Legible .ellipsis
  | punct {c : Char} (mark : IsMark c) : Legible (.punct c)

theorem isMark_of_measure
    {c : Char} {cs : List Char} {n : Nat}
    (measured : measure c cs = .ok (.punct, n)) : IsMark c where
  visible := by
    rw [Bool.eq_false_iff]
    intro blank
    rw [measure_blank blank] at measured
    cases measured
  notHash := by
    rintro rfl
    by_cases bracket : cs.head? = some '['
    · obtain ⟨rest, rfl⟩ := List.head?_eq_some_iff.mp bracket
      rw [measure_bracket] at measured
      cases measured
    · rw [measure_hash bracket] at measured
      cases measured
  noQuote := by
    intro quote
    rw [measure_quote quote] at measured
    split at measured <;> cases measured
  noDigit := by
    rw [Bool.eq_false_iff]
    intro digit
    rw [measure_number (.inl digit)] at measured
    cases measured
  noLetter := by
    rw [Bool.eq_false_iff]
    intro letter
    by_cases blank : isBlank c = true
    · rw [measure_blank blank] at measured
      cases measured
    · rw [measure_name (Bool.not_eq_true _ ▸ blank) (.inl letter)] at measured
      cases measured

theorem isBlank_of_measure_name
    {c : Char} {cs : List Char} {n : Nat}
    (measured : measure c cs = .ok (.name, n)) : isBlank c = false := by
  rw [Bool.eq_false_iff]
  intro blank
  rw [measure_blank blank] at measured
  cases measured

theorem legible_of_measure
    {c : Char} {cs : List Char} {shape : Shape} {n : Nat} {t : Token}
    (measured : measure c cs = .ok (shape, n))
    (stands : Lexeme.token? ⟨shape, c :: cs.take n⟩ = some t)
    (noDoc : ∀ text, t ≠ .docComment text)
    (noGroup : ∀ text, t = .name text → text.toList.getLast? ≠ some '\\') :
    t.Legible := by
  cases measured_of_measure measured with
  | openTag => cases stands
  | inlineText => cases stands
  | blank => cases stands
  | slashes => cases stands
  | hash => cases stands
  | attributeOpen =>
      cases stands
      exact .attributeOpen
  | comment =>
      split at stands
      · cases stands
        exact absurd rfl (noDoc _)
      · cases stands
  | @quoted n mark length =>
      obtain ⟨body, rest, rfl, rfl, escaped⟩ := exists_of_quotedLength length
      rw [List.append_cons, List.take_left' (by simp)] at stands
      cases stands
      exact .quoted mark escaped
  | @heredoc after n mark text length =>
      subst mark text
      obtain ⟨text, rest, rfl, rfl, heredoc, -⟩ := exists_heredocText length
      rw [List.take_succ_cons, List.take_succ_cons, List.take_left] at stands
      cases stands
      exact .heredoc heredoc
  | dollar mark named =>
      obtain ⟨d, rest, rfl, starts⟩ := exists_cons_of_any_head? named
      have letter : isNameChar d = true := by simp [isNameChar, starts]
      have letters := forall_mem_take_runLength isNameChar (d :: rest)
      rw [runLength_cons letter, List.take_succ_cons] at stands letters
      cases stands
      exact .dollar starts letters
  | @ellipsis after mark text =>
      cases stands
      exact .ellipsis
  | number starts =>
      cases stands
      refine .number (starts.imp_right ?_) (forall_mem_take_runLength _ cs)
      rintro ⟨dot, digit⟩
      refine ⟨dot, ?_⟩
      obtain ⟨d, rest, rfl, isDigit⟩ := exists_cons_of_any_head? digit
      have inNumber : isNumberChar d = true := by
        simp [isNumberChar, Char.isAlphanum, isDigit]
      rw [runLength_cons inNumber, List.take_succ_cons]
      exact digit
  | name starts =>
      cases stands
      have visible := isBlank_of_measure_name measured
      have length : (cs.take (nameLength cs)).length = nameLength cs :=
        List.length_take_of_le (nameLength_le cs)
      have ends : (cs.take (nameLength cs)).getLast? ≠ some '\\' := by
        intro last
        apply noGroup _ rfl
        rw [String.toList_ofList, List.getLast?_cons, last]
        rfl
      have parts : nameLength
          (cs.take (nameLength cs) ++ cs.drop (nameLength cs)) =
            (cs.take (nameLength cs)).length := by
        rw [List.take_append_drop, length]
      refine .name visible (starts.imp_right ?_) (nameLength_of_append parts ends)
      rintro ⟨backslash, named⟩
      refine ⟨backslash, ?_⟩
      obtain ⟨d, rest, rfl, isStart⟩ := exists_cons_of_any_head? named
      rw [nameLength_cons, if_pos (by simp [isNameChar, isStart]),
        List.take_succ_cons]
      exact named
  | punct visible =>
      cases stands
      exact .punct (isMark_of_measure measured)

theorem exists_measure_of_read
    {source : String} {ts : List Token} (done : Token.read source = .ok ts)
    {t : Token} (inside : t ∈ ts) :
    ∃ c cs shape n, measure c cs = .ok (shape, n) ∧
      Lexeme.token? ⟨shape, c :: cs.take n⟩ = some t := by
  obtain ⟨lexemes, read, rfl⟩ := exists_of_map_eq_ok done
  obtain ⟨x, member, stands⟩ := List.mem_filterMap.mp inside
  obtain ⟨c, rest, n, text, measured⟩ :=
    Lexeme.exists_measure_of_mem read x member
  obtain ⟨shape, cs⟩ := x
  cases text
  exact ⟨c, rest, shape, n, measured, stands⟩

/-- The tokens of a text are read alone as they are, except doc comments and
names that end in a backslash. -/
theorem legible_of_read
    {source : String} {ts : List Token} (done : Token.read source = .ok ts)
    {t : Token} (inside : t ∈ ts) (noDoc : ∀ text, t ≠ .docComment text)
    (noGroup : ∀ text, t = .name text → text.toList.getLast? ≠ some '\\') :
    t.Legible := by
  obtain ⟨c, cs, shape, n, measured, stands⟩ := exists_measure_of_read done inside
  exact legible_of_measure measured stands noDoc noGroup

/-! ## First characters -/

@[simp]
theorem toList_spelling_name (cs : List Char) :
    (Token.name (String.ofList cs)).spelling.toList = cs :=
  String.toList_ofList

@[simp]
theorem toList_spelling_variable (cs : List Char) :
    (Token.variable (String.ofList cs)).spelling.toList = '$' :: cs := by
  rw [Token.spelling, String.toList_append]
  exact congrArg ('$' :: ·) String.toList_ofList

@[simp]
theorem toList_spelling_literal (cs : List Char) :
    (Token.literal (String.ofList cs)).spelling.toList = cs :=
  String.toList_ofList

@[simp]
theorem toList_spelling_number (cs : List Char) :
    (Token.number (String.ofList cs)).spelling.toList = cs :=
  String.toList_ofList

@[simp]
theorem toList_spelling_punct (c : Char) :
    (Token.punct c).spelling.toList = [c] := by
  simp [Token.spelling]

namespace Token

/-- How the tokens of source texts start. -/
inductive Begins : Char → Token → Prop
  | name {c : Char} {cs : List Char}
      (visible : isBlank c = false)
      (letter : isNameStart c = true ∨ c = '\\')
      (letters : ∀ d ∈ cs, isNameChar d = true ∨ d = '\\') :
      Begins c (.name (String.ofList (c :: cs)))
  | dollar {text : String} : Begins '$' (.variable text)
  | quoted {c : Char} {body : List Char} (mark : IsQuote c) :
      Begins c (.literal (String.ofList (c :: (body ++ [c]))))
  | heredoc {cs : List Char} :
      Begins '<' (.literal (String.ofList ('<' :: '<' :: '<' :: cs)))
  | digit {c : Char} {cs : List Char} (digit : c.isDigit = true) :
      Begins c (.number (String.ofList (c :: cs)))
  | point {d : Char} {cs : List Char} (digit : d.isDigit = true) :
      Begins '.' (.number (String.ofList ('.' :: d :: cs)))
  | hash : Begins '#' .attributeOpen
  | dots : Begins '.' .ellipsis
  | punct {c : Char} (mark : IsMark c) : Begins c (.punct c)

theorem mem_take_nameLength {cs : List Char} {d : Char}
    (inside : d ∈ cs.take (nameLength cs)) :
    isNameChar d = true ∨ d = '\\' := by
  obtain ⟨name, rest, split, length, letters⟩ := exists_of_nameLength cs
  rw [length, split, List.take_left] at inside
  exact letters d inside

/-- A token that starts as the tokens of source texts do. -/
def IsProper (t : Token) : Prop := ∃ c, Begins c t

section Beginnings

variable {t : Token} {c : Char}

theorem Begins.visible (begins : Begins c t) : isBlank c = false := by
  cases begins with
  | name visible => exact visible
  | quoted mark => rcases mark with rfl | rfl | rfl <;> rfl
  | digit digit => exact isBlank_of_isDigit digit
  | punct mark => exact mark.visible
  | _ => rfl

theorem Begins.exists_spelling (begins : Begins c t) :
    ∃ cs, t.spelling.toList = c :: cs := by
  cases begins with
  | name => exact ⟨_, toList_spelling_name _⟩
  | dollar => exact ⟨_, String.toList_append⟩
  | quoted => exact ⟨_, toList_spelling_literal _⟩
  | heredoc => exact ⟨_, toList_spelling_literal _⟩
  | digit => exact ⟨_, toList_spelling_number _⟩
  | point => exact ⟨_, toList_spelling_number _⟩
  | hash => exact ⟨_, rfl⟩
  | dots => exact ⟨_, rfl⟩
  | punct => exact ⟨_, toList_spelling_punct _⟩

theorem Legible.isProper (legible : t.Legible) : t.IsProper := by
  cases legible with
  | @name c cs visible starts whole =>
      refine ⟨c, .name visible (starts.imp_right (·.1)) fun d inside => ?_⟩
      apply mem_take_nameLength
      rwa [whole, List.take_length]
  | dollar => exact ⟨_, .dollar⟩
  | quoted mark => exact ⟨_, .quoted mark⟩
  | heredoc => exact ⟨_, .heredoc⟩
  | @number c cs starts letters =>
      rcases starts with digit | ⟨rfl, digit⟩
      · exact ⟨_, .digit digit⟩
      · cases cs with
        | nil => cases digit
        | cons d cs => exact ⟨_, .point digit⟩
  | attributeOpen => exact ⟨_, .hash⟩
  | ellipsis => exact ⟨_, .dots⟩
  | punct mark => exact ⟨_, .punct mark⟩

namespace IsProper

theorem begins
    (proper : t.IsProper) (starts : t.spelling.toList.head? = some c) :
    Begins c t := by
  obtain ⟨d, begins⟩ := proper
  obtain ⟨cs, spelled⟩ := begins.exists_spelling
  rw [spelled, List.head?_cons] at starts
  obtain rfl := Option.some.inj starts
  exact begins

/-- The spelling starts with a character that is no blank. -/
theorem exists_spelling (proper : t.IsProper) :
    ∃ c cs, t.spelling.toList = c :: cs ∧ isBlank c = false := by
  obtain ⟨c, begins⟩ := proper
  obtain ⟨cs, spelled⟩ := begins.exists_spelling
  exact ⟨c, cs, spelled, begins.visible⟩

theorem ne_docComment (proper : t.IsProper) (text : String) :
    t ≠ .docComment text := by
  rintro rfl
  obtain ⟨c, begins⟩ := proper
  cases begins

/-- Tokens that are no words. -/
theorem cases_of_not_isWord
    (proper : t.IsProper) (other : t.isWord = false) :
    t = .attributeOpen ∨ t = .ellipsis ∨ ∃ c, t = .punct c ∧ IsMark c := by
  obtain ⟨c, begins⟩ := proper
  cases begins with
  | hash => exact .inl rfl
  | dots => exact .inr (.inl rfl)
  | punct mark => exact .inr (.inr ⟨_, rfl, mark⟩)
  | _ => cases other

/-- The first characters by which a mark is known. -/
theorem eq_punct
    (proper : t.IsProper) (starts : t.spelling.toList.head? = some c)
    (plain : c ∉ ['\\', '\'', '"', '`', '<', '#', '$', '.'])
    (notWord : isNameStart c = false ∧ c.isDigit = false) :
    t = .punct c := by
  simp only [List.mem_cons, List.not_mem_nil, or_false, not_or] at plain
  cases proper.begins starts with
  | name _ letter => simp [notWord, plain] at letter
  | quoted mark => simp [IsQuote, plain] at mark
  | digit digit => simp [notWord] at digit
  | punct mark => rfl
  | _ => simp at plain

/-- A token that starts with a letter is a name. -/
theorem exists_name
    (proper : t.IsProper) (starts : t.spelling.toList.head? = some c)
    (letter : isNameStart c = true) :
    ∃ cs, t = .name (String.ofList (c :: cs)) := by
  cases proper.begins starts with
  | name => exact ⟨_, rfl⟩
  | quoted mark => rcases mark with rfl | rfl | rfl <;> cases letter
  | digit digit => simp [isNameStart_of_isDigit digit] at letter
  | punct mark => simp [mark.noLetter] at letter
  | _ => cases letter

theorem isNameChar_or {text : String}
    (proper : (name text).IsProper) (inside : c ∈ text.toList) :
    isNameChar c = true ∨ c = '\\' := by
  obtain ⟨d, begins⟩ := proper
  cases begins with
  | name visible letter letters =>
      rw [String.toList_ofList, List.mem_cons] at inside
      rcases inside with rfl | inside
      · exact letter.imp_left fun letter => by simp [isNameChar, letter]
      · exact letters c inside

/-- A token that starts with a quotation mark ends with it. -/
theorem exists_literal
    (proper : t.IsProper) (starts : t.spelling.toList.head? = some c)
    (mark : IsQuote c) :
    ∃ body, t = .literal (String.ofList (c :: (body ++ [c]))) := by
  cases proper.begins starts with
  | quoted => exact ⟨_, rfl⟩
  | name _ letter =>
      rcases mark with rfl | rfl | rfl <;> exact absurd letter (by decide)
  | digit digit => rcases mark with rfl | rfl | rfl <;> cases digit
  | punct plain => exact absurd mark plain.noQuote
  | dollar | heredoc | point | hash | dots => simp [IsQuote] at mark

/-- A token that starts with a dot. -/
theorem cases_of_dot
    (proper : t.IsProper) (starts : t.spelling.toList.head? = some '.') :
    t = .punct '.' ∨ t = .ellipsis ∨
      ∃ d cs, t = .number (String.ofList ('.' :: d :: cs)) ∧
        d.isDigit = true := by
  cases proper.begins starts with
  | name _ letter => exact absurd letter (by decide)
  | quoted mark => simp [IsQuote] at mark
  | digit digit => cases digit
  | point digit => exact .inr (.inr ⟨_, _, rfl, digit⟩)
  | dots => exact .inr (.inl rfl)
  | punct => exact .inl rfl

/-- A token that starts with an arrow. -/
theorem cases_of_arrow
    (proper : t.IsProper) (starts : t.spelling.toList.head? = some '<') :
    t = .punct '<' ∨
      ∃ cs, t = .literal (String.ofList ('<' :: '<' :: '<' :: cs)) := by
  cases proper.begins starts with
  | name _ letter => exact absurd letter (by decide)
  | quoted mark => simp [IsQuote] at mark
  | heredoc => exact .inr ⟨_, rfl⟩
  | digit digit => cases digit
  | punct => exact .inl rfl

/-- A quotation mark is not alone. -/
theorem not_isQuote
    (proper : t.IsProper) (spelled : t.spelling.toList = [c]) : ¬ IsQuote c := by
  have starts : t.spelling.toList.head? = some c := by
    rw [spelled]
    rfl
  intro mark
  obtain ⟨body, rfl⟩ := proper.exists_literal starts mark
  rw [toList_spelling_literal] at spelled
  simp at spelled

end IsProper

end Beginnings

/-- The tokens of a text start in one of these ways, except doc comments. -/
theorem isProper_of_read
    {source : String} {ts : List Token} (done : read source = .ok ts)
    {t : Token} (inside : t ∈ ts) (noDoc : ∀ text, t ≠ .docComment text) :
    t.IsProper := by
  by_cases group : ∃ text, t = .name text ∧ text.toList.getLast? = some '\\'
  · -- such a name starts like the others
    obtain ⟨text, rfl, -⟩ := group
    obtain ⟨c, cs, shape, n, measured, stands⟩ := exists_measure_of_read done inside
    cases measured_of_measure measured with
    | name starts =>
        cases stands
        exact ⟨c, .name (isBlank_of_measure_name measured)
          (starts.imp_right (·.1)) fun _ inside => mem_take_nameLength inside⟩
    | comment => split at stands <;> cases stands
    | _ => cases stands
  · refine (legible_of_read done inside noDoc ?_).isProper
    rintro text rfl last
    exact group ⟨text, rfl, last⟩

end Token

section Marks

variable {c : Char}

theorem IsMark.isNumberChar_eq (mark : IsMark c) :
    isNumberChar c = (c == '.') := by
  have noLetter := mark.noLetter
  rw [isNameStart, Bool.or_eq_false_iff, Bool.or_eq_false_iff] at noLetter
  simp [isNumberChar, Char.isAlphanum, noLetter, mark.noDigit]

theorem measure_mark
    (mark : IsMark c) (other : c ∉ ['$', '\\', '/', '?', '.', '<'])
    (rest : List Char) :
    measure c rest = .ok (.punct, 0) := by
  have noQuote := mark.noQuote
  simp only [IsQuote, not_or] at noQuote
  simp only [List.mem_cons, List.not_mem_nil, or_false, not_or] at other
  have plain : c ∉ leading := by
    simp [leading, other, noQuote, mark.notHash]
  rw [measure_plain mark.visible plain, mark.noDigit, mark.noLetter]
  simp [other]

end Marks

/-! ## Tokens before a text -/

/-- The token is read before the given text, and not more of the text than its
spelling. -/
def Token.IsReadBefore (t : Token) (rest : List Char) : Prop :=
  ∃ c cs shape, t.spelling.toList = c :: cs ∧
    measure c (cs ++ rest) = .ok (shape, cs.length) ∧
    Lexeme.token? ⟨shape, c :: cs⟩ = some t

section Before

variable {c : Char} {cs rest : List Char}

theorem isReadBefore_iff
    {t : Token} {shape : Shape} {n : Nat} (spelled : t.spelling.toList = c :: cs)
    (stands : Lexeme.token? ⟨shape, c :: cs⟩ = some t)
    (measured : measure c (cs ++ rest) = .ok (shape, n)) :
    t.IsReadBefore rest ↔ n = cs.length := by
  constructor
  · rintro ⟨d, ds, other, same, again, -⟩
    obtain ⟨rfl, rfl⟩ := List.cons.inj (spelled.symm.trans same)
    rw [measured] at again
    cases again
    rfl
  · rintro rfl
    exact ⟨c, cs, shape, spelled, measured, stands⟩

theorem isReadBefore_name_iff
    (visible : isBlank c = false)
    (starts : isNameStart c = true ∨
      c = '\\' ∧ cs.head?.any isNameStart = true)
    (whole : nameLength cs = cs.length) :
    (Token.name (String.ofList (c :: cs))).IsReadBefore rest ↔
      nameLength rest = 0 := by
  have begins : isNameStart c = true ∨
      c = '\\' ∧ (cs ++ rest).head?.any isNameStart = true := by
    refine starts.imp_right fun ⟨backslash, named⟩ => ⟨backslash, ?_⟩
    cases cs with
    | nil => cases named
    | cons d cs => exact named
  rw [isReadBefore_iff (toList_spelling_name _) rfl (measure_name visible begins),
    nameLength_append whole]
  omega

theorem isReadBefore_variable
    (starts : isNameStart c = true)
    (letters : ∀ d ∈ c :: cs, isNameChar d = true)
    (stops : StopsAt isNameChar rest) :
    (Token.variable (String.ofList (c :: cs))).IsReadBefore rest := by
  have named : (c :: cs ++ rest).head?.any isNameStart = true := starts
  exact (isReadBefore_iff (toList_spelling_variable _) rfl
    (measure_dollar named)).mpr
    (runLength_append_of_stopsAt letters stops)

theorem isReadBefore_quoted
    {body : List Char} (mark : IsQuote c) (escaped : Escaped c body)
    (rest : List Char) :
    (Token.literal (String.ofList (c :: (body ++ [c])))).IsReadBefore rest := by
  have apart : c ≠ '\\' := by
    rintro rfl
    rcases mark with quote | quote | quote <;> cases quote
  have measured : measure c (body ++ [c] ++ rest) =
      .ok (.quoted, body.length + 1) := by
    rw [List.append_assoc, List.singleton_append, measure_quote mark,
      quotedLength_append escaped apart]
  rw [isReadBefore_iff (toList_spelling_literal _) rfl measured,
    List.length_append]
  rfl

theorem isReadBefore_heredoc
    {text : List Char} (heredoc : HeredocText text)
    (stops : StopsAt isNameChar rest) :
    (Token.literal
      (String.ofList ('<' :: '<' :: '<' :: text))).IsReadBefore rest := by
  have measured : measure '<' ('<' :: '<' :: text ++ rest) =
      .ok (.heredoc, text.length + 2) := by
    rw [List.cons_append, List.cons_append, measure_arrows,
      heredocLength?_append heredoc stops]
  exact (isReadBefore_iff (toList_spelling_literal _) rfl measured).mpr rfl

theorem isReadBefore_number_iff
    (starts : c.isDigit = true ∨ c = '.' ∧ cs.head?.any Char.isDigit = true)
    (letters : ∀ d ∈ cs, isNumberChar d = true) :
    (Token.number (String.ofList (c :: cs))).IsReadBefore rest ↔
      StopsAt isNumberChar rest := by
  have begins : c.isDigit = true ∨
      c = '.' ∧ (cs ++ rest).head?.any Char.isDigit = true := by
    refine starts.imp_right fun ⟨dot, digit⟩ => ⟨dot, ?_⟩
    cases cs with
    | nil => cases digit
    | cons d cs => exact digit
  rw [isReadBefore_iff (toList_spelling_number _) rfl (measure_number begins),
    runLength_append letters, ← runLength_eq_zero_iff]
  omega

theorem isReadBefore_attributeOpen (rest : List Char) :
    Token.attributeOpen.IsReadBefore rest :=
  ⟨'#', ['['], .attributeOpen, rfl, measure_bracket rest, rfl⟩

theorem isReadBefore_ellipsis (rest : List Char) :
    Token.ellipsis.IsReadBefore rest :=
  ⟨'.', ['.', '.'], .ellipsis, rfl, measure_dots rest, rfl⟩

theorem isReadBefore_punct_iff :
    (Token.punct c).IsReadBefore rest ↔ measure c rest = .ok (.punct, 0) := by
  constructor
  · rintro ⟨d, ds, shape, same, measured, stands⟩
    obtain ⟨rfl, rfl⟩ := List.cons.inj ((toList_spelling_punct c).symm.trans same)
    cases shape with
    | punct => exact measured
    | _ => cases stands
  · intro measured
    exact ⟨c, [], .punct, toList_spelling_punct c, measured, rfl⟩

end Before

end BusReference.Php
