import BusReference.Php.Literal
import BusReference.Proofs.Php.Lexeme.Measures
import Mathlib.Data.List.DropRight

/-!
# Texts of default values

The value of a default expression is told by its text: by a few words, as a
decimal number, by the quotes around it, or else it is kept as it is.  Each of
these is described here without the reader, so that what is kept can be told by
what the text is not.
-/

namespace BusReference.Php.DefaultValue

open BusReference.Text.Blank (isBlank trim)
open Lexeme.Reading (drop_runLength)

/-! ## Decimal numbers -/

/-- Digits, and at least one of them. -/
def IsDigits (cs : List Char) : Prop :=
  cs ≠ [] ∧ ∀ c ∈ cs, c.isDigit = true

/-- A sign or nothing. -/
inductive IsSign : List Char → Prop
  | none : IsSign []
  | minus : IsSign ['-']
  | plus : IsSign ['+']

theorem IsSign.isNumeric {cs : List Char} (signed : IsSign cs) :
    ∀ c ∈ cs, isNumeric c = true := by
  cases signed <;> simp [DefaultValue.isNumeric]

/-- An exponent with its letter, or nothing. -/
inductive IsExponent : List Char → Prop
  | none : IsExponent []
  | digits {letter : Char} {sign ds : List Char}
      (mark : letter = 'e' ∨ letter = 'E') (signed : IsSign sign)
      (digits : IsDigits ds) :
      IsExponent (letter :: (sign ++ ds))

/-- A decimal number: a sign, digits that may have a point among or beside them,
and an exponent. -/
inductive IsDecimal : List Char → Prop
  | whole {sign ds exponent : List Char}
      (signed : IsSign sign) (digits : IsDigits ds)
      (scaled : IsExponent exponent) :
      IsDecimal (sign ++ (ds ++ exponent))
  | point {sign whole fraction exponent : List Char}
      (signed : IsSign sign) (digits : IsDigits (whole ++ fraction))
      (scaled : IsExponent exponent) :
      IsDecimal (sign ++ (whole ++ '.' :: (fraction ++ exponent)))

section Decimals

variable {cs sign ds rest : List Char}

theorem isSome_readDigits_iff : (readDigits cs).isSome ↔ IsDigits cs := by
  rw [readDigits, IsDigits]
  split
  · rename_i digits
    simpa using digits
  · rename_i other
    simpa using other

theorem exists_sign (cs : List Char) :
    ∃ sign, IsSign sign ∧ cs = sign ++ (readSign cs).2 := by
  unfold readSign
  split
  · exact ⟨_, .minus, rfl⟩
  · exact ⟨_, .plus, rfl⟩
  · exact ⟨_, .none, rfl⟩

/-- The sign is split off where none follows it. -/
theorem readSign_append
    (signed : IsSign sign) (apart : ∀ c ∈ rest.head?, c ≠ '-' ∧ c ≠ '+') :
    (readSign (sign ++ rest)).2 = rest := by
  cases signed with
  | minus => rfl
  | plus => rfl
  | none =>
      cases rest with
      | nil => rfl
      | cons c rest =>
          obtain ⟨noMinus, noPlus⟩ := apart c rfl
          rw [List.nil_append, readSign]
          · exact fun _ same => noMinus (List.cons.inj same).1
          · exact fun _ same => noPlus (List.cons.inj same).1

theorem ne_sign_of_isDigit {c : Char} (digit : c.isDigit = true) :
    c ≠ '-' ∧ c ≠ '+' := by
  constructor
  · rintro rfl
    cases digit
  · rintro rfl
    cases digit

theorem IsDigits.noSign (digits : IsDigits ds) :
    ∀ c ∈ ds.head?, c ≠ '-' ∧ c ≠ '+' := fun c first =>
  ne_sign_of_isDigit (digits.2 c (List.mem_of_mem_head? first))

theorem IsDigits.readSign_append (digits : IsDigits ds) (signed : IsSign sign) :
    (readSign (sign ++ ds)).2 = ds :=
  DefaultValue.readSign_append signed digits.noSign

theorem isSome_readExponent_cons_iff {c : Char} :
    (readExponent (c :: cs)).isSome ↔
      (c = 'e' ∨ c = 'E') ∧ IsDigits (readSign cs).2 := by
  have lifted : ∀ o : Option Nat, (do let n ← o; pure (n : Int)).isSome = o.isSome := by
    intro o
    cases o <;> rfl
  rw [readExponent]
  split
  · rename_i mark
    rw [Option.isSome_map, lifted, isSome_readDigits_iff, and_iff_right mark]
  · rename_i other
    exact iff_of_false Bool.false_ne_true fun marked => other marked.1

theorem isSome_readExponent_iff : (readExponent cs).isSome ↔ IsExponent cs := by
  cases cs with
  | nil => exact iff_of_true rfl .none
  | cons c cs =>
      rw [isSome_readExponent_cons_iff]
      constructor
      · rintro ⟨mark, digits⟩
        obtain ⟨sign, signed, split⟩ := exists_sign cs
        rw [split]
        exact .digits mark signed digits
      · rintro (_ | ⟨mark, signed, digits⟩)
        rw [digits.readSign_append signed]
        exact ⟨mark, digits⟩

/-- No digit is left before an exponent. -/
theorem IsExponent.takeWhile_isDigit (scaled : IsExponent cs) :
    cs.takeWhile Char.isDigit = [] := by
  cases scaled with
  | none => rfl
  | digits mark => rcases mark with rfl | rfl <;> rfl

theorem IsExponent.dropWhile_isDigit (scaled : IsExponent cs) :
    cs.dropWhile Char.isDigit = cs := by
  cases scaled with
  | none => rfl
  | digits mark => rcases mark with rfl | rfl <;> rfl

theorem IsExponent.noPoint (scaled : IsExponent cs) : cs.head? ≠ some '.' := by
  cases scaled with
  | none => nofun
  | digits mark => rcases mark with rfl | rfl <;> nofun

theorem takeWhile_isDigit_append
    (digits : ∀ c ∈ ds, c.isDigit = true)
    (stops : rest.takeWhile Char.isDigit = []) :
    (ds ++ rest).takeWhile Char.isDigit = ds := by
  rw [List.takeWhile_append_of_pos digits, stops, List.append_nil]

section Parts

variable {whole : List Char} (digits : ∀ c ∈ whole, c.isDigit = true)
include digits

theorem isSome_readFloat_point_iff
    (split : (readSign cs).2 = whole ++ '.' :: rest) :
    (readFloat cs).isSome ↔
      IsDigits (whole ++ rest.takeWhile Char.isDigit) ∧
        IsExponent (rest.dropWhile Char.isDigit) := by
  have stops : ('.' :: rest).takeWhile Char.isDigit = [] := rfl
  have left : rest.drop (rest.takeWhile Char.isDigit).length =
      rest.dropWhile Char.isDigit :=
    drop_runLength Char.isDigit rest
  unfold readFloat
  generalize readSign cs = signed at split ⊢
  obtain ⟨negative, unsigned⟩ := signed
  obtain rfl : unsigned = whole ++ '.' :: rest := split
  simp only [takeWhile_isDigit_append digits stops, List.drop_left, left]
  rw [← isSome_readDigits_iff, ← isSome_readExponent_iff]
  cases readDigits (whole ++ rest.takeWhile Char.isDigit) <;>
    cases readExponent (rest.dropWhile Char.isDigit) <;> simp

theorem isSome_readFloat_whole_iff
    (split : (readSign cs).2 = whole ++ rest)
    (stops : rest.takeWhile Char.isDigit = [])
    (noPoint : rest.head? ≠ some '.') :
    (readFloat cs).isSome ↔ IsDigits whole ∧ IsExponent rest := by
  unfold readFloat
  generalize readSign cs = signed at split ⊢
  obtain ⟨negative, unsigned⟩ := signed
  obtain rfl : unsigned = whole ++ rest := split
  have other : ∀ after, ¬ rest = '.' :: after := by
    rintro after rfl
    exact noPoint rfl
  simp only [takeWhile_isDigit_append digits stops, List.drop_left,
    List.append_nil]
  rw [← isSome_readDigits_iff, ← isSome_readExponent_iff]
  cases readDigits whole <;> cases readExponent rest <;> simp

end Parts

theorem isSome_readFloat_iff : (readFloat cs).isSome ↔ IsDecimal cs := by
  constructor
  · intro some
    obtain ⟨sign, signed, split⟩ := exists_sign cs
    generalize unsigned : (readSign cs).2 = us at split
    have digits : ∀ c ∈ us.takeWhile Char.isDigit, c.isDigit = true :=
      fun c inside => List.mem_takeWhile_imp inside
    have parts : us = us.takeWhile Char.isDigit ++ us.dropWhile Char.isDigit :=
      List.takeWhile_append_dropWhile.symm
    have stops : (us.dropWhile Char.isDigit).takeWhile Char.isDigit = [] := by
      cases left : us.dropWhile Char.isDigit with
      | nil => rfl
      | cons c rest =>
          have stops := List.head?_dropWhile_not Char.isDigit us
          rw [left] at stops
          simpa using stops
    by_cases point : (us.dropWhile Char.isDigit).head? = Option.some '.'
    · obtain ⟨rest, after⟩ := List.head?_eq_some_iff.mp point
      rw [after] at parts
      rw [isSome_readFloat_point_iff digits (unsigned.trans parts)] at some
      have later : rest =
          rest.takeWhile Char.isDigit ++ rest.dropWhile Char.isDigit :=
        List.takeWhile_append_dropWhile.symm
      rw [split, parts, later]
      exact .point signed some.1 some.2
    · rw [isSome_readFloat_whole_iff digits (unsigned.trans parts) stops point]
        at some
      rw [split, parts]
      exact .whole signed some.1 some.2
  · intro decimal
    cases decimal with
    | @whole sign ds exponent signed digits scaled =>
        have apart : ∀ c ∈ (ds ++ exponent).head?, c ≠ '-' ∧ c ≠ '+' := by
          rw [List.head?_append_of_ne_nil ds digits.1]
          exact digits.noSign
        rw [isSome_readFloat_whole_iff digits.2 (readSign_append signed apart)
          scaled.takeWhile_isDigit scaled.noPoint]
        exact ⟨digits, scaled⟩
    | @point sign whole fraction exponent signed digits scaled =>
        obtain ⟨before, after⟩ := List.forall_mem_append.mp digits.2
        have apart : ∀ c ∈ (whole ++ '.' :: (fraction ++ exponent)).head?,
            c ≠ '-' ∧ c ≠ '+' := by
          cases whole with
          | nil =>
              rintro _ ⟨⟩
              decide
          | cons d whole =>
              rintro _ ⟨⟩
              exact ne_sign_of_isDigit (before d List.mem_cons_self)
        rw [isSome_readFloat_point_iff before (readSign_append signed apart),
          takeWhile_isDigit_append after scaled.takeWhile_isDigit,
          List.dropWhile_append_of_pos after, scaled.dropWhile_isDigit]
        exact ⟨digits, scaled⟩

instance (cs : List Char) : Decidable (IsDecimal cs) :=
  decidable_of_iff _ isSome_readFloat_iff

example : IsDecimal "-1e+5".toList ∧ IsDecimal "2.".toList ∧
    ¬ IsDecimal ".e5".toList := by
  decide +kernel

theorem IsExponent.isNumeric (scaled : IsExponent cs) :
    ∀ c ∈ cs, isNumeric c = true := by
  cases scaled with
  | none => nofun
  | digits mark signed digits =>
      rw [List.forall_mem_cons, List.forall_mem_append]
      refine ⟨?_, signed.isNumeric, fun c inside => ?_⟩
      · rcases mark with rfl | rfl <;> rfl
      · simp [isNumeric, digits.2 c inside]

theorem IsDecimal.isNumeric (decimal : IsDecimal cs) :
    ∀ c ∈ cs, isNumeric c = true := by
  have numeric : ∀ c, c.isDigit = true → DefaultValue.isNumeric c = true := by
    intro c digit
    simp [DefaultValue.isNumeric, digit]
  cases decimal with
  | whole signed digits scaled =>
      rw [List.forall_mem_append, List.forall_mem_append]
      exact ⟨signed.isNumeric, fun c inside => numeric c (digits.2 c inside),
        scaled.isNumeric⟩
  | point signed digits scaled =>
      obtain ⟨before, after⟩ := List.forall_mem_append.mp digits.2
      rw [List.forall_mem_append, List.forall_mem_append, List.forall_mem_cons,
        List.forall_mem_append]
      exact ⟨signed.isNumeric, fun c inside => numeric c (before c inside), rfl,
        fun c inside => numeric c (after c inside), scaled.isNumeric⟩

/-- A number is a decimal number with underscores anywhere. -/
theorem isSome_number?_iff :
    (number? cs).isSome ↔ IsDecimal (cs.filter (· != '_')) := by
  rw [number?]
  cases int : readInt (cs.filter (· != '_')) with
  | some n =>
      refine iff_of_true rfl ?_
      obtain ⟨sign, signed, split⟩ := exists_sign (cs.filter (· != '_'))
      have digits : IsDigits (readSign (cs.filter (· != '_'))).2 := by
        rw [← isSome_readDigits_iff]
        unfold readInt at int
        dsimp only at int
        split at int
        · cases int
        · rename_i found
          rw [found]
          rfl
      rw [split]
      simpa using IsDecimal.whole signed digits .none
  | none =>
      rw [← isSome_readFloat_iff]
      dsimp only
      constructor
      · intro found
        split at found
        · rwa [Option.isSome_map] at found
        · cases found
      · intro found
        have numeric : cs.all isNumeric = true := by
          rw [List.all_eq_true]
          intro c inside
          by_cases underscore : c = '_'
          · rw [underscore]
            rfl
          · have kept : c ∈ cs.filter (· != '_') :=
              List.mem_filter.mpr ⟨inside, by simpa using underscore⟩
            exact (isSome_readFloat_iff.mp found).isNumeric c kept
        rw [if_pos numeric, Option.isSome_map]
        exact found

end Decimals

/-! ## Words and quotes -/

/-- The words for a value, in small letters. -/
def keywords : List String :=
  ["null", "\\null", "true", "\\true", "false", "\\false", "[]", "array()"]

/-- A quotation mark of a string. -/
def IsStringQuote (c : Char) : Prop := c = '\'' ∨ c = '"'

/-- The text stands between two quotation marks of the same kind. -/
def IsQuoted (cs : List Char) : Prop :=
  ∃ quote inner, IsStringQuote quote ∧ cs = quote :: (inner ++ [quote])

section Words

variable {cs : List Char} {text : String} {value : DefaultValue}

theorem toList_toLower (text : String) :
    text.toLower.toList = text.toList.map Char.toLower :=
  String.toList_map

theorem isSome_keyword?_iff : (keyword? text).isSome ↔ text ∈ keywords := by
  unfold keyword?
  split <;> simp_all [keywords]

/-- A word or a number has a value without being evaluated, and it is no string. -/
def IsPlain : DefaultValue → Prop
  | string _ | expression _ => False
  | _ => True

theorem isPlain_of_keyword? (found : keyword? text = some value) : value.IsPlain := by
  unfold keyword? at found
  split at found <;> cases found <;> trivial

theorem isPlain_of_number? (found : number? cs = some value) : value.IsPlain := by
  rw [number?] at found
  split at found
  · cases found
    trivial
  · split at found
    · obtain ⟨float, -, rfl⟩ := Option.map_eq_some_iff.mp found
      trivial
    · cases found

theorem isSome_unquote_iff {quote : Char} :
    (unquote quote cs).isSome ↔ ∃ inner, cs = quote :: (inner ++ [quote]) := by
  cases cs with
  | nil => exact iff_of_false Bool.false_ne_true nofun
  | cons c cs =>
      rw [unquote]
      constructor
      · intro found
        split at found
        · rename_i both
          obtain ⟨inner, rfl⟩ := List.getLast?_eq_some_iff.mp both.2
          exact ⟨inner, by rw [both.1]⟩
        · cases found
      · rintro ⟨inner, same⟩
        obtain ⟨rfl, rfl⟩ := List.cons.inj same
        rw [if_pos ⟨rfl, List.getLast?_concat⟩]
        rfl

theorem quoted?_cases (cs : List Char) :
    (IsQuoted cs ∧ ∃ s, quoted? cs = some (.string s)) ∨
      (¬ IsQuoted cs ∧ quoted? cs = none) := by
  rw [quoted?]
  cases single : unquote '\'' cs with
  | some inner =>
      obtain ⟨body, same⟩ := isSome_unquote_iff.mp (Option.isSome_of_eq_some single)
      exact .inl ⟨⟨_, body, .inl rfl, same⟩, _, rfl⟩
  | none =>
      cases double : unquote '"' cs with
      | some inner =>
          obtain ⟨body, same⟩ :=
            isSome_unquote_iff.mp (Option.isSome_of_eq_some double)
          exact .inl ⟨⟨_, body, .inr rfl, same⟩, _, rfl⟩
      | none =>
          refine .inr ⟨?_, rfl⟩
          rintro ⟨_, body, rfl | rfl, same⟩
          · have found := isSome_unquote_iff.mpr ⟨body, same⟩
            rw [single] at found
            cases found
          · have found := isSome_unquote_iff.mpr ⟨body, same⟩
            rw [double] at found
            cases found

/-- The text is one of the words or a number. -/
def IsPlainText (cs : List Char) : Prop :=
  (String.ofList cs).toLower ∈ keywords ∨ IsDecimal (cs.filter (· != '_'))

/-- A text in quotes is neither a word nor a number. -/
theorem IsQuoted.not_isPlainText (quoted : IsQuoted cs) : ¬ IsPlainText cs := by
  obtain ⟨quote, inner, mark, rfl⟩ := quoted
  rintro (listed | decimal)
  · have first := congrArg List.head?
      (toList_toLower (String.ofList (quote :: (inner ++ [quote]))))
    rw [String.toList_ofList, List.map_cons, List.head?_cons] at first
    have starts : ∀ word ∈ keywords,
        word.toList.head? ≠ some '\'' ∧ word.toList.head? ≠ some '"' := by
      decide +kernel
    rcases mark with rfl | rfl
    · exact (starts _ listed).1 first
    · exact (starts _ listed).2 first
  · have numeric := decimal.isNumeric quote
    rcases mark with rfl | rfl
    · exact absurd (numeric (by simp)) (by decide)
    · exact absurd (numeric (by simp)) (by decide)

theorem parse_cases (text : String) :
    (IsQuoted (trim text.toList) ∧ ∃ s, parse text = .string s) ∨
      (IsPlainText (trim text.toList) ∧ (parse text).IsPlain) ∨
      (¬ IsQuoted (trim text.toList) ∧ ¬ IsPlainText (trim text.toList) ∧
        parse text = .expression (String.ofList (trim text.toList))) := by
  rw [parse]
  generalize trim text.toList = cs
  cases word : keyword? (String.ofList cs).toLower with
  | some value =>
      have listed := isSome_keyword?_iff.mp (Option.isSome_of_eq_some word)
      exact .inr (.inl ⟨.inl listed, isPlain_of_keyword? word⟩)
  | none =>
      cases number : number? cs with
      | some value =>
          have decimal := isSome_number?_iff.mp (Option.isSome_of_eq_some number)
          exact .inr (.inl ⟨.inr decimal, isPlain_of_number? number⟩)
      | none =>
          rcases quoted?_cases cs with ⟨quoted, s, found⟩ | ⟨unquoted, found⟩
          · exact .inl ⟨quoted, s, by rw [found]; rfl⟩
          · refine .inr (.inr ⟨unquoted, ?_, by rw [found]; rfl⟩)
            rintro (listed | decimal)
            · rw [← isSome_keyword?_iff, word] at listed
              cases listed
            · rw [← isSome_number?_iff, number] at decimal
              cases decimal

/-- A default value is a string exactly if its text is in quotes. -/
theorem parse_eq_string_iff :
    (∃ s, parse text = .string s) ↔ IsQuoted (trim text.toList) := by
  rcases parse_cases text with ⟨quoted, found⟩ | ⟨plain, found⟩ |
    ⟨unquoted, -, found⟩
  · exact iff_of_true found quoted
  · refine iff_of_false ?_ fun quoted => quoted.not_isPlainText plain
    rintro ⟨s, same⟩
    rw [same] at found
    exact found
  · refine iff_of_false ?_ unquoted
    rintro ⟨s, same⟩
    rw [found] at same
    cases same

/-- The text is kept if it is no word and no number and not in quotes. -/
theorem parse_eq_expression_iff {kept : String} :
    parse text = .expression kept ↔
      kept = String.ofList (trim text.toList) ∧
        ¬ IsQuoted (trim text.toList) ∧ ¬ IsPlainText (trim text.toList) := by
  rcases parse_cases text with ⟨quoted, s, found⟩ | ⟨plain, found⟩ |
    ⟨unquoted, evaluated, found⟩
  · refine iff_of_false ?_ fun other => other.2.1 quoted
    rw [found]
    nofun
  · refine iff_of_false (fun same => ?_) fun other => other.2.2 plain
    rw [same] at found
    exact found
  · rw [found, expression.injEq, and_iff_left ⟨unquoted, evaluated⟩]
    exact eq_comm

end Words

end BusReference.Php.DefaultValue
