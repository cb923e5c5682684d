import BusReference.Proofs.Php.Default.Texts
import BusReference.Proofs.Php.Joined.Reading
import BusReference.Proofs.Text.Trimming

/-!
# Default expressions

The value of a default is found from the joined text of its expression.  Whether
it is a string is seen from the first and the last character alone, so an
expression of several tokens is taken for one if it starts with a string and
ends with a string in the same quotes.  The main statements say of the tokens
when they give a string, and when several of them are kept as they are.
-/

namespace BusReference.Php

open BusReference.Text.Blank
  (isBlank trim trim_cons rdropWhile_cons_of_neg rdropWhile_append_of_ne_nil)
open Lexeme.Reading
open Token (IsProper joined)

/-! ## Ends of joined tokens -/

/-- The text of a token without the blanks at its end. -/
def Token.trimmed (t : Token) : List Char :=
  t.spelling.toList.rdropWhile isBlank

section Ends

variable {t : Token} {ts : List Token} {c : Char} {cs : List Char}

theorem trim_joined (proper : ∀ u ∈ ts, u.IsProper) :
    trim (joined false ts) = (joined false ts).rdropWhile isBlank := by
  cases ts with
  | nil => rfl
  | cons t ts =>
      have first := proper t List.mem_cons_self
      obtain ⟨c, cs, spelled, visible⟩ := first.exists_spelling
      rw [Token.joined_false_cons first.ne_docComment, spelled, List.cons_append,
        trim_cons visible, rdropWhile_cons_of_neg visible]

theorem Token.IsProper.trimmed_ne_nil (proper : t.IsProper) : t.trimmed ≠ [] := by
  obtain ⟨c, cs, spelled, visible⟩ := proper.exists_spelling
  rw [Token.trimmed, spelled, rdropWhile_cons_of_neg visible]
  exact List.cons_ne_nil _ _

theorem exists_joined_concat
    (proper : ∀ u ∈ ts, u.IsProper) (last : t.IsProper) (afterWord : Bool) :
    ∃ before, joined afterWord (ts ++ [t]) = before ++ t.spelling.toList := by
  induction ts generalizing afterWord with
  | nil =>
      rw [List.nil_append, Token.joined_cons last.ne_docComment, Token.joined_nil,
        List.append_nil]
      exact ⟨_, rfl⟩
  | cons u us ih =>
      rw [List.forall_mem_cons] at proper
      obtain ⟨before, text⟩ := ih proper.2 u.isWord
      rw [List.cons_append, Token.joined_cons proper.1.ne_docComment, text,
        ← List.append_assoc, ← List.append_assoc]
      exact ⟨_, rfl⟩

/-- The blanks at the end of joined tokens are those of the last one. -/
theorem exists_trim_joined
    (proper : ∀ u ∈ ts, u.IsProper) (ends : ts.getLast? = some t) :
    ∃ before, joined false ts = before ++ t.spelling.toList ∧
      trim (joined false ts) = before ++ t.trimmed := by
  obtain ⟨us, rfl⟩ := List.getLast?_eq_some_iff.mp ends
  have parts := List.forall_mem_append.mp proper
  have last := parts.2 t List.mem_cons_self
  obtain ⟨before, text⟩ := exists_joined_concat parts.1 last false
  refine ⟨before, text, ?_⟩
  rw [trim_joined proper, text]
  exact rdropWhile_append_of_ne_nil last.trimmed_ne_nil before

end Ends

namespace DefaultValue

/-! ## Strings -/

/-- The tokens start with a string in the given quotes, and the last one ends
with such a quote, blanks aside. -/
structure IsEnclosed (quote : Char) (ts : List Token) : Prop where
  opens : ∃ text, ts.head? = some (.literal text) ∧
    text.toList.head? = some quote
  closes : ∃ t, ts.getLast? = some t ∧ t.trimmed.getLast? = some quote

section Strings

variable {ts : List Token} {quote : Char}

theorem IsStringQuote.isQuote (mark : IsStringQuote quote) : IsQuote quote :=
  mark.imp_right .inl

theorem isQuoted_trim_joined_iff (proper : ∀ t ∈ ts, t.IsProper) :
    IsQuoted (trim (joined false ts)) ↔
      ∃ quote, IsStringQuote quote ∧ IsEnclosed quote ts := by
  cases ts with
  | nil =>
      refine iff_of_false ?_ ?_
      · rintro ⟨quote, inner, -, same⟩
        cases same
      · rintro ⟨quote, -, ⟨text, head, -⟩, -⟩
        cases head
  | cons t us =>
      have first := proper t List.mem_cons_self
      obtain ⟨c, cs, spelled, visible⟩ := first.exists_spelling
      have starts : t.spelling.toList.head? = some c := by
        rw [spelled]
        rfl
      have text : trim (joined false (t :: us)) =
          c :: (cs ++ joined t.isWord us).rdropWhile isBlank := by
        rw [Token.joined_false_cons first.ne_docComment, spelled,
          List.cons_append, trim_cons visible]
      obtain ⟨last, ends⟩ : ∃ last, (t :: us).getLast? = some last :=
        ⟨_, List.getLast?_eq_some_getLast (List.cons_ne_nil t us)⟩
      have final : (trim (joined false (t :: us))).getLast? =
          last.trimmed.getLast? := by
        obtain ⟨before, -, whole⟩ := exists_trim_joined proper ends
        have some := (proper last (List.mem_of_getLast? ends)).trimmed_ne_nil
        rw [whole, List.getLast?_append_of_ne_nil _ some]
      constructor
      · rintro ⟨quote, inner, mark, same⟩
        rw [same] at final
        rw [text] at same
        obtain rfl : c = quote := (List.cons.inj same).1
        obtain ⟨body, rfl⟩ := first.exists_literal starts mark.isQuote
        refine ⟨c, mark, ⟨_, rfl, ?_⟩, last, ends, ?_⟩
        · rw [String.toList_ofList]
          rfl
        · rw [← final, ← List.cons_append, List.getLast?_concat]
      · rintro ⟨quote, mark, ⟨raw, head, opens⟩, other, atEnd, closes⟩
        obtain rfl : t = .literal raw := Option.some.inj head
        obtain rfl : last = other := Option.some.inj (ends.symm.trans atEnd)
        obtain rfl : c = quote := Option.some.inj (starts.symm.trans opens)
        obtain ⟨body, same⟩ := first.exists_literal starts mark.isQuote
        -- the quote that closes the first token is no blank
        have left : (cs ++ joined true us).rdropWhile isBlank ≠ [] := by
          rw [same, toList_spelling_literal] at spelled
          obtain rfl := (List.cons.inj spelled).2
          intro nothing
          have blank := List.rdropWhile_eq_nil_iff.mp nothing c (by simp)
          rw [visible] at blank
          cases blank
        obtain ⟨d, ds, rest⟩ := List.exists_cons_of_ne_nil left
        have ended := final.trans closes
        rw [text, Token.isWord, rest, List.getLast?_cons_cons, ← rest] at ended
        obtain ⟨inner, split⟩ := List.getLast?_eq_some_iff.mp ended
        exact ⟨c, inner, mark, by rw [text, Token.isWord, split]⟩

/-- An expression gives a string exactly if it is enclosed in quotes. -/
theorem parse_join_eq_string_iff (proper : ∀ t ∈ withoutDocs ts, t.IsProper) :
    (∃ s, parse (Token.join ts) = .string s) ↔
      ∃ quote, IsStringQuote quote ∧ IsEnclosed quote (withoutDocs ts) := by
  rw [← Token.join_withoutDocs, parse_eq_string_iff]
  exact isQuoted_trim_joined_iff proper

end Strings

/-! ## Expressions that are kept -/

/-- The names of the constants that have a value of their own. -/
def constants : List String := ["null", "true", "false"]

/-- The empty array, or a constant after a backslash that is a token of its own. -/
inductive IsConstant : List Token → Prop
  | brackets : IsConstant [.punct '[', .punct ']']
  | array {text : String} (named : text.toLower = "array") :
      IsConstant [.name text, .punct '(', .punct ')']
  | rooted {text : String} (named : text.toLower ∈ constants) :
      IsConstant [.punct '\\', .name text]

section Words

variable {ts us : List Token} {c d : Char} {cs : List Char}

theorem eq_of_toLower_eq (other : d.isLower = false) (same : c.toLower = d) :
    c = d := by
  have noLetter : c.isAlpha = false := by
    rw [← Char.isLower_toLower_eq_isAlpha, same, other]
  have noUpper : c.isUpper = false := by
    rw [Char.isAlpha, Bool.or_eq_false_iff] at noLetter
    exact noLetter.1
  rw [← same, Char.toLower_eq_of_not_isUpper]
  rw [noUpper]
  exact Bool.false_ne_true

theorem isLower_of_mem_constants {word : String} (listed : word ∈ constants) :
    word.toList ≠ [] ∧ ∀ c ∈ word.toList, c.isLower = true := by
  have words : ∀ word ∈ constants,
      word.toList ≠ [] ∧ word.toList.all Char.isLower = true := by
    decide +kernel
  rw [← List.all_eq_true]
  exact words word listed

theorem isNameStart_of_toLower (letter : c.toLower.isLower = true) :
    isNameStart c = true := by
  rw [Char.isLower_toLower_eq_isAlpha] at letter
  simp [isNameStart, letter]

theorem append_inj_of_stopsAt
    {p : Char → Bool} {as bs rest after : List Char}
    (first : ∀ c ∈ as, p c = true) (second : ∀ c ∈ bs, p c = true)
    (stops : StopsAt p rest) (ends : StopsAt p after)
    (same : as ++ rest = bs ++ after) : as = bs ∧ rest = after := by
  apply List.append_inj same
  rw [← runLength_append_of_stopsAt first stops, same,
    runLength_append_of_stopsAt second ends]

theorem eq_nil_of_joined_eq_nil
    (proper : ∀ u ∈ ts, u.IsProper) (nothing : joined false ts = []) :
    ts = [] := by
  cases ts with
  | nil => rfl
  | cons t ts =>
      have first := proper t List.mem_cons_self
      obtain ⟨c, cs, spelled, -⟩ := first.exists_spelling
      rw [Token.joined_false_cons first.ne_docComment, spelled] at nothing
      cases nothing

/-- What follows a name has a character that is in no name. -/
theorem eq_nil_of_joined_true
    (proper : ∀ u ∈ ts, u.IsProper)
    (letters : ∀ c ∈ joined true ts, isNameChar c = true) : ts = [] := by
  cases ts with
  | nil => rfl
  | cons t ts =>
      have stops := Token.stopsAt_isNameChar_joined proper
      have first := proper t List.mem_cons_self
      obtain ⟨c, cs, spelled, -⟩ := first.exists_spelling
      obtain ⟨d, ds, text⟩ : ∃ d ds, joined true (t :: ts) = d :: ds := by
        rw [Token.joined_cons first.ne_docComment, spelled]
        cases t.isWord with
        | true => exact ⟨_, _, rfl⟩
        | false => exact ⟨_, _, rfl⟩
      rw [text, StopsAt, List.head?_cons, Option.any_some] at stops
      rw [text] at letters
      rw [letters d List.mem_cons_self] at stops
      cases stops

theorem joined_false_of_joined_true
    (proper : ∀ u ∈ ts, u.IsProper) (text : joined true ts = c :: cs)
    (visible : c ≠ ' ') : joined false ts = c :: cs := by
  cases ts with
  | nil => cases text
  | cons t ts =>
      have first := proper t List.mem_cons_self
      rw [Token.joined_cons first.ne_docComment] at text ⊢
      cases word : t.isWord with
      | false => rwa [word] at text
      | true =>
          rw [word] at text
          cases text
          exact absurd rfl visible

/-- A text that starts with a letter starts with a name. -/
theorem exists_name_of_joined
    (proper : ∀ u ∈ ts, u.IsProper) (text : joined false ts = c :: cs)
    (letter : isNameStart c = true) :
    ∃ name us, ts = .name name :: us := by
  have head : (joined false ts).head? = some c := by
    rw [text]
    rfl
  obtain ⟨u, us, rfl, starts⟩ := (Token.head?_joined_iff proper).mp head
  obtain ⟨ds, rfl⟩ := (proper u List.mem_cons_self).exists_name starts letter
  exact ⟨_, us, rfl⟩

/-- A text of nothing but letters is one name. -/
theorem exists_name_of_letters
    (proper : ∀ u ∈ ts, u.IsProper) {word : List Char} (some : word ≠ [])
    (lower : ∀ c ∈ word, c.isLower = true)
    (same : (joined false ts).map Char.toLower = word) :
    ∃ name, ts = [.name name] ∧ name.toLower.toList = word := by
  have letters : ∀ c ∈ joined false ts, isNameStart c = true := by
    intro c inside
    apply isNameStart_of_toLower
    apply lower
    rw [← same]
    exact List.mem_map_of_mem inside
  obtain ⟨c, cs, text⟩ : ∃ c cs, joined false ts = c :: cs := by
    apply List.exists_cons_of_ne_nil
    intro nothing
    rw [nothing] at same
    exact some same.symm
  obtain ⟨name, us, rfl⟩ := exists_name_of_joined proper text
    (letters c (by rw [text]; exact List.mem_cons_self))
  rw [Token.joined_false_cons (by simp)] at letters same
  have others := List.forall_mem_cons.mp proper
  obtain rfl := eq_nil_of_joined_true others.2 fun c inside => by
    simp [isNameChar, letters c (List.mem_append_right _ inside)]
  rw [Token.joined_nil, List.append_nil] at same
  exact ⟨name, rfl, (toList_toLower name).trans same⟩

/-- The mark that a text starts with is a token. -/
theorem exists_punct_of_joined
    (proper : ∀ u ∈ ts, u.IsProper) (text : joined false ts = c :: cs)
    (plain : c ∉ ['\\', '\'', '"', '`', '<', '#', '$', '.'])
    (notWord : isNameStart c = false ∧ c.isDigit = false) :
    ∃ us, ts = .punct c :: us ∧ joined false us = cs := by
  have head : (joined false ts).head? = some c := by
    rw [text]
    rfl
  obtain ⟨us, rfl⟩ :=
    (Token.head?_joined_punct_iff proper plain notWord).mp head
  rw [Token.joined_punct] at text
  exact ⟨us, rfl, (List.cons.inj text).2⟩

/-- A text that is a backslash and letters is one name, or a backslash and one. -/
theorem isConstant_of_backslash
    (proper : ∀ u ∈ ts, u.IsProper) (several : 2 ≤ ts.length)
    {word : String} (listed : word ∈ constants)
    (same : (joined false ts).map Char.toLower = '\\' :: word.toList) :
    IsConstant ts := by
  obtain ⟨some, lower⟩ := isLower_of_mem_constants listed
  obtain ⟨b, cs, text, backslash, rest⟩ := List.map_eq_cons_iff.mp same
  obtain rfl : b = '\\' := eq_of_toLower_eq rfl backslash
  have letters : ∀ c ∈ cs, isNameStart c = true := by
    intro c inside
    apply isNameStart_of_toLower
    apply lower
    rw [← rest]
    exact List.mem_map_of_mem inside
  have head : (joined false ts).head? = Option.some '\\' := by
    rw [text]
    rfl
  obtain ⟨u, us, rfl, starts⟩ := (Token.head?_joined_iff proper).mp head
  rw [List.forall_mem_cons] at proper
  cases proper.1.begins starts with
  | name =>
      -- what follows the name is no letter
      rw [Token.joined_false_cons (by simp), toList_spelling_name,
        List.cons_append] at text
      obtain rfl := (List.cons.inj text).2
      obtain rfl := eq_nil_of_joined_true proper.2 fun c inside => by
        simp [isNameChar, letters c (List.mem_append_right _ inside)]
      exact absurd several (Nat.not_succ_le_self 1)
  | quoted mark => simp [IsQuote] at mark
  | digit digit => cases digit
  | punct =>
      rw [Token.joined_punct] at text
      obtain rfl := (List.cons.inj text).2
      obtain ⟨name, rfl, named⟩ := exists_name_of_letters proper.2 some lower rest
      rw [String.toList_inj] at named
      exact .rooted (named ▸ listed)

theorem isConstant_of_brackets
    (proper : ∀ u ∈ ts, u.IsProper)
    (same : (joined false ts).map Char.toLower = ['[', ']']) : IsConstant ts := by
  obtain ⟨a, as, text, first, rest⟩ := List.map_eq_cons_iff.mp same
  obtain ⟨b, bs, rfl, second, nothing⟩ := List.map_eq_cons_iff.mp rest
  obtain rfl := List.map_eq_nil_iff.mp nothing
  obtain rfl := eq_of_toLower_eq rfl first
  obtain rfl := eq_of_toLower_eq rfl second
  obtain ⟨us, rfl, left⟩ :=
    exists_punct_of_joined proper text (by decide) (by decide)
  rw [List.forall_mem_cons] at proper
  obtain ⟨vs, rfl, none⟩ :=
    exists_punct_of_joined proper.2 left (by decide) (by decide)
  rw [List.forall_mem_cons] at proper
  obtain rfl := eq_nil_of_joined_eq_nil proper.2.2 none
  exact .brackets

theorem isConstant_of_array
    (proper : ∀ u ∈ ts, u.IsProper)
    (same : (joined false ts).map Char.toLower = "array".toList ++ ['(', ')']) :
    IsConstant ts := by
  obtain ⟨word, marks, text, named, closes⟩ := List.map_eq_append_iff.mp same
  obtain ⟨a, as, rfl, first, rest⟩ := List.map_eq_cons_iff.mp closes
  obtain ⟨b, bs, rfl, second, nothing⟩ := List.map_eq_cons_iff.mp rest
  obtain rfl := List.map_eq_nil_iff.mp nothing
  obtain rfl := eq_of_toLower_eq rfl first
  obtain rfl := eq_of_toLower_eq rfl second
  have letters : ∀ c ∈ word, isNameStart c = true := by
    have lower : "array".toList.all Char.isLower = true := by decide +kernel
    rw [List.all_eq_true] at lower
    intro c inside
    apply isNameStart_of_toLower
    apply lower
    rw [← named]
    exact List.mem_map_of_mem inside
  cases word with
  | nil => exact absurd named (by decide +kernel)
  | cons c cs =>
      obtain ⟨name, us, rfl⟩ :=
        exists_name_of_joined proper text (letters c List.mem_cons_self)
      rw [List.forall_mem_cons] at proper
      rw [Token.joined_false_cons (by simp)] at text
      have own : ∀ d ∈ name.toList, isNameChar d = true := by
        intro d inside
        rcases proper.1.isNameChar_or inside with letter | rfl
        · exact letter
        · have within : '\\' ∈ c :: cs ++ ['(', ')'] := by
            rw [← text]
            exact List.mem_append_left _ inside
          rcases List.mem_append.mp within with among | among
          · exact absurd (letters _ among) (by decide)
          · exact absurd among (by decide)
      have given : ∀ d ∈ c :: cs, isNameChar d = true := fun d inside => by
        simp [isNameChar, letters d inside]
      have ends : StopsAt isNameChar ['(', ')'] := rfl
      obtain ⟨word, after⟩ := append_inj_of_stopsAt own given
        (Token.stopsAt_isNameChar_joined proper.2) ends text
      obtain ⟨vs, rfl, left⟩ := exists_punct_of_joined proper.2
        (joined_false_of_joined_true proper.2 after (by decide))
        (by decide) (by decide)
      rw [List.forall_mem_cons] at proper
      obtain ⟨ws, rfl, none⟩ :=
        exists_punct_of_joined proper.2.2 left (by decide) (by decide)
      rw [List.forall_mem_cons] at proper
      obtain rfl := eq_nil_of_joined_eq_nil proper.2.2.2 none
      refine .array ?_
      rw [← String.toList_inj, toList_toLower, ← named]
      exact congrArg (List.map Char.toLower) word

/-- The words that a text of several tokens can be. -/
theorem toLower_joined_mem_keywords_iff
    (proper : ∀ u ∈ ts, u.IsProper) (several : 2 ≤ ts.length) :
    (String.ofList (joined false ts)).toLower ∈ keywords ↔ IsConstant ts := by
  have lower := toList_toLower (String.ofList (joined false ts))
  rw [String.toList_ofList] at lower
  constructor
  · intro listed
    have kinds : ∀ word ∈ keywords,
        word ∈ constants ∨
          (∃ name ∈ constants, word.toList = '\\' :: name.toList) ∨
          word.toList = ['[', ']'] ∨ word.toList = "array".toList ++ ['(', ')'] := by
      decide +kernel
    rcases kinds _ listed with constant | ⟨name, constant, rooted⟩ | empty | empty
    · obtain ⟨some, letters⟩ := isLower_of_mem_constants constant
      obtain ⟨name, rfl, -⟩ :=
        exists_name_of_letters proper some letters lower.symm
      exact absurd several (Nat.not_succ_le_self 1)
    · exact isConstant_of_backslash proper several constant
        (lower.symm.trans rooted)
    · exact isConstant_of_brackets proper (lower.symm.trans empty)
    · exact isConstant_of_array proper (lower.symm.trans empty)
  · intro constant
    cases constant with
    | brackets => decide +kernel
    | @array text named =>
        have word : (String.ofList (joined false
            [.name text, .punct '(', .punct ')'])).toLower = "array()" := by
          have marks : joined true [.punct '(', .punct ')'] = ['(', ')'] := by
            decide +kernel
          rw [← String.toList_inj, lower, Token.joined_false_cons (by simp),
            List.map_append, Token.spelling, ← toList_toLower, named,
            Token.isWord, marks]
          decide +kernel
        rw [word]
        decide +kernel
    | @rooted text named =>
        have word : (String.ofList (joined false
            [.punct '\\', .name text])).toLower =
              String.ofList ('\\' :: text.toLower.toList) := by
          rw [← String.toList_inj, lower, Token.joined_punct,
            Token.joined_false_cons (by simp), Token.joined_nil, List.append_nil,
            String.toList_ofList, toList_toLower]
          rfl
        have listed : ∀ name ∈ constants,
            String.ofList ('\\' :: name.toList) ∈ keywords := by
          decide +kernel
        rw [word]
        exact listed _ named

end Words

/-- Several tokens that are neither a literal nor taken for one. -/
structure IsEvaluated (ts : List Token) : Prop where
  unquoted : ∀ quote, IsStringQuote quote → ¬ IsEnclosed quote ts
  noConstant : ¬ IsConstant ts
  noNumber : ¬ IsDecimal ((joined false ts).filter (· != '_'))
  ends : ∀ t, ts.getLast? = some t → t.trimmed = t.spelling.toList

section Evaluated

variable {ts : List Token}

theorem trim_joined_eq_iff (proper : ∀ u ∈ ts, u.IsProper) :
    trim (joined false ts) = joined false ts ↔
      ∀ t, ts.getLast? = some t → t.trimmed = t.spelling.toList := by
  cases last : ts.getLast? with
  | none =>
      rw [List.getLast?_eq_none_iff] at last
      subst last
      exact iff_of_true rfl nofun
  | some t =>
      obtain ⟨before, text, trimmed⟩ := exists_trim_joined proper last
      rw [trimmed, text, List.append_right_inj]
      constructor
      · rintro same _ ⟨⟩
        exact same
      · exact fun same => same t rfl

/-- An expression of several tokens is kept exactly if it has to be evaluated. -/
theorem parse_join_eq_expression_iff
    (proper : ∀ t ∈ withoutDocs ts, t.IsProper)
    (several : 2 ≤ (withoutDocs ts).length) :
    parse (Token.join ts) = .expression (Token.join ts) ↔
      IsEvaluated (withoutDocs ts) := by
  rw [← Token.join_withoutDocs, parse_eq_expression_iff]
  generalize withoutDocs ts = ws at proper several
  have kept : Token.join ws = String.ofList (trim (joined false ws)) ↔
      trim (joined false ws) = joined false ws := by
    rw [← String.toList_inj, String.toList_ofList]
    exact eq_comm
  change Token.join ws = String.ofList (trim (joined false ws)) ∧
    ¬ IsQuoted (trim (joined false ws)) ∧
      ¬ IsPlainText (trim (joined false ws)) ↔ _
  rw [kept]
  constructor
  · rintro ⟨same, unquoted, evaluated⟩
    rw [IsPlainText, same, toLower_joined_mem_keywords_iff proper several, not_or]
      at evaluated
    rw [isQuoted_trim_joined_iff proper] at unquoted
    exact ⟨fun quote mark enclosed => unquoted ⟨quote, mark, enclosed⟩,
      evaluated.1, evaluated.2, (trim_joined_eq_iff proper).mp same⟩
  · rintro ⟨unquoted, noConstant, noNumber, ends⟩
    have same := (trim_joined_eq_iff proper).mpr ends
    refine ⟨same, ?_, ?_⟩
    · rw [isQuoted_trim_joined_iff proper]
      rintro ⟨quote, mark, enclosed⟩
      exact unquoted quote mark enclosed
    · rw [IsPlainText, same, toLower_joined_mem_keywords_iff proper several, not_or]
      exact ⟨noConstant, noNumber⟩

end Evaluated

end DefaultValue

end BusReference.Php
