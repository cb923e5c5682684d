import BusReference.Proofs.Php.Default.Texts
import BusReference.Proofs.Text.Trimming

/-!
# Literals of default values

A default value is written as a literal.  Reading the literal gives the value
back for the constants, for all integers of 64 bits and for all strings, and the
text of an expression is read as the same expression again.  The two kinds that
are not written in this way are left out: a float is written like an integer if
it is large, and the empty array over two lines.

Strings come back because the escapes that are written are those that are read,
and because nothing in quotes is a word or a number.  Integers come back because
their digits are neither words nor interrupted by underscores.
-/

namespace BusReference.Php.DefaultValue

open BusReference.Text.Blank (isBlank trim trim_trim trim_eq_self)

/-- What a text stands for is told by the trimmed text. -/
theorem parse_trim (text : String) :
    parse (String.ofList (trim text.toList)) = parse text := by
  rw [parse, parse, String.toList_ofList, trim_trim]

/-! ## Strings -/

section Strings

variable {quote c : Char} {cs inner : List Char}

theorem decodeSingle_cons (plain : c ≠ '\\') (cs : List Char) :
    decodeSingle (c :: cs) = c :: decodeSingle cs := by
  rw [decodeSingle]
  · rintro rest rfl
    exact fun _ => plain rfl
  · rintro rest rfl
    exact fun _ => plain rfl

theorem decodeSingle_escaped (escaped : c = '\\' ∨ c = '\'') (cs : List Char) :
    decodeSingle ('\\' :: c :: cs) = c :: decodeSingle cs := by
  rcases escaped with rfl | rfl <;> rfl

/-- The escapes that are written are read. -/
theorem decodeSingle_encodeSingle (cs : List Char) :
    decodeSingle (encodeSingle cs) = cs := by
  induction cs with
  | nil => rfl
  | cons c cs ih =>
      rw [encodeSingle]
      split
      · rename_i escaped
        rw [decodeSingle_escaped escaped, ih]
      · rename_i plain
        rw [not_or] at plain
        rw [decodeSingle_cons plain.1, ih]

theorem unquote_quoted (quote : Char) (inner : List Char) :
    unquote quote (quote :: (inner ++ [quote])) = some inner := by
  rw [unquote, if_pos ⟨rfl, List.getLast?_concat⟩, List.dropLast_concat]

theorem unquote_of_ne (other : c ≠ quote) (cs : List Char) :
    unquote quote (c :: cs) = none := by
  rw [unquote, if_neg fun both => other both.1]

/-- A text in quotes has nothing to trim. -/
theorem trim_quoted (mark : IsStringQuote quote) (inner : List Char) :
    trim (quote :: (inner ++ [quote])) = quote :: (inner ++ [quote]) := by
  have visible : isBlank quote = false := by
    rcases mark with rfl | rfl <;> decide
  apply trim_eq_self
  · rintro _ ⟨⟩
    exact visible
  · intro last ends
    rw [← List.cons_append, List.getLast?_concat] at ends
    cases ends
    exact visible

/-- The value of a text in quotes is told by the quotes and what they enclose. -/
theorem quoted?_of_isQuoted {text : String} (quoted : IsQuoted (trim text.toList)) :
    quoted? (trim text.toList) = some (parse text) := by
  have plain := quoted.not_isPlainText
  rw [IsPlainText, not_or, ← isSome_keyword?_iff, ← isSome_number?_iff,
    Option.not_isSome_iff_eq_none, Option.not_isSome_iff_eq_none] at plain
  rcases quoted?_cases (trim text.toList) with ⟨-, s, found⟩ | ⟨other, -⟩
  · simp only [parse, plain.1, plain.2, found, Option.getD_some]
  · exact absurd quoted other

theorem quoted?_quoted (mark : IsStringQuote quote) (inner : List Char) :
    quoted? (quote :: (inner ++ [quote])) =
      some (parse (String.ofList (quote :: (inner ++ [quote])))) := by
  have text : trim (String.ofList (quote :: (inner ++ [quote]))).toList =
      quote :: (inner ++ [quote]) := by
    rw [String.toList_ofList]
    exact trim_quoted mark inner
  have found := quoted?_of_isQuoted ⟨quote, inner, mark, text⟩
  rwa [text] at found

theorem parse_single (inner : List Char) :
    parse (String.ofList ('\'' :: (inner ++ ['\'']))) =
      .string (String.ofList (decodeSingle inner)) := by
  have found := quoted?_quoted (.inl rfl) inner
  rw [quoted?, unquote_quoted] at found
  exact (Option.some.inj found).symm

theorem parse_double (inner : List Char) :
    parse (String.ofList ('"' :: (inner ++ ['"']))) =
      .string (String.ofList (decodeDouble inner)) := by
  have found := quoted?_quoted (.inr rfl) inner
  rw [quoted?, unquote_of_ne (by decide), unquote_quoted] at found
  exact (Option.some.inj found).symm

theorem toList_stringLiteral (value : String) :
    (literal (.string value)).toList =
      '\'' :: (encodeSingle value.toList ++ ['\'']) := by
  simp [literal]

theorem parse_stringLiteral (value : String) :
    parse (literal (.string value)) = .string value := by
  rw [← String.ofList_toList (s := literal _), toList_stringLiteral, parse_single,
    decodeSingle_encodeSingle, String.ofList_toList]

end Strings

/-! ## Integers -/

section Integers

variable {ds : List Char} {n : Int}

theorem isDigits_toDigits (n : Nat) : IsDigits (Nat.toDigits 10 n) :=
  ⟨Nat.toDigits_ne_nil, fun _ =>
    Nat.isDigit_of_mem_toDigits (by decide) (by decide)⟩

theorem readDigits_toDigits (n : Nat) :
    readDigits (Nat.toDigits 10 n) = some n := by
  obtain ⟨filled, digits⟩ := isDigits_toDigits n
  rw [readDigits, if_pos]
  · rw [← Nat.ofDigitChars_eq_foldl, Nat.ofDigitChars_ten_toDigits]
  · simpa [filled] using digits

theorem IsDigits.readSign_eq (digits : IsDigits ds) :
    readSign ds = (false, ds) := by
  cases ds with
  | nil => rfl
  | cons c cs =>
      obtain ⟨noMinus, noPlus⟩ := digits.noSign c rfl
      rw [readSign]
      · exact fun _ same => noMinus (List.cons.inj same).1
      · exact fun _ same => noPlus (List.cons.inj same).1

/-- The digits of an integer with its sign. -/
theorem toList_intLiteral (n : Int) :
    (intLiteral n).toList =
      (if n < 0 then ['-'] else []) ++ Nat.toDigits 10 n.natAbs := by
  rw [intLiteral, String.toList_append, String.toList_ofList]
  split <;> rfl

theorem readInt_intLiteral (least : minInt ≤ n) (greatest : n ≤ maxInt) :
    readInt (intLiteral n).toList = some n := by
  have digits := isDigits_toDigits n.natAbs
  rw [toList_intLiteral]
  by_cases negative : n < 0
  · have value : -(n.natAbs : Int) = n := by omega
    simp only [if_pos negative, readInt, List.cons_append, List.nil_append, readSign,
      readDigits_toDigits, if_true, value, if_pos (And.intro least greatest)]
  · have value : (n.natAbs : Int) = n := by omega
    simp only [if_neg negative, readInt, List.nil_append, digits.readSign_eq,
      readDigits_toDigits, Bool.false_eq_true, if_false, value,
      if_pos (And.intro least greatest)]

/-- An integer that is read is one of 64 bits. -/
theorem inRange_of_readInt {cs : List Char} (read : readInt cs = some n) :
    minInt ≤ n ∧ n ≤ maxInt := by
  unfold readInt at read
  dsimp only at read
  split at read
  · cases read
  · obtain ⟨inRange, same⟩ := Option.ite_none_right_eq_some.mp read
    rwa [Option.some.inj same] at inRange

/-- An integer starts with a sign or a digit. -/
theorem head?_intLiteral {c : Char} (first : (intLiteral n).toList.head? = some c) :
    c = '-' ∨ c.isDigit = true := by
  rw [toList_intLiteral] at first
  split at first
  · exact .inl (Option.some.inj first).symm
  · exact .inr ((isDigits_toDigits _).2 c (List.mem_of_mem_head? first))

theorem getLast?_intLiteral {c : Char} (last : (intLiteral n).toList.getLast? = some c) :
    c.isDigit = true := by
  obtain ⟨filled, digits⟩ := isDigits_toDigits n.natAbs
  rw [toList_intLiteral, List.getLast?_append_of_ne_nil _ filled] at last
  exact digits c (List.mem_of_getLast? last)

theorem toNat_of_isDigit {c : Char} (digit : c.isDigit = true) :
    0x30 ≤ c.toNat ∧ c.toNat ≤ 0x39 := by
  simp only [Char.isDigit, Bool.and_eq_true, decide_eq_true_eq,
    UInt32.le_iff_toNat_le] at digit
  exact digit

theorem isBlank_of_isDigit {c : Char} (digit : c.isDigit = true) :
    isBlank c = false := by
  have range := toNat_of_isDigit digit
  simp only [isBlank, Bool.or_eq_false_iff, Bool.and_eq_false_iff,
    decide_eq_false_iff_not, beq_eq_false_iff_ne]
  omega

theorem toLower_of_isDigit {c : Char} (digit : c.isDigit = true) :
    c.toLower = c := by
  have range := toNat_of_isDigit digit
  apply dif_neg
  intro capital
  have start : 0x41 ≤ c.toNat := UInt32.le_iff_toNat_le.mp capital.1
  omega

/-- An integer has nothing to trim. -/
theorem trim_intLiteral (n : Int) :
    trim (intLiteral n).toList = (intLiteral n).toList := by
  apply trim_eq_self
  · intro c first
    rcases head?_intLiteral first with rfl | digit
    · decide
    · exact isBlank_of_isDigit digit
  · intro c last
    exact isBlank_of_isDigit (getLast?_intLiteral last)

/-- No word for a value starts like an integer. -/
theorem keyword?_intLiteral (n : Int) : keyword? (intLiteral n).toLower = none := by
  rw [← Option.not_isSome_iff_eq_none, isSome_keyword?_iff]
  intro listed
  have starts : ∀ word ∈ keywords,
      word.toList.head?.any (fun c => c != '-' && !c.isDigit) = true := by
    decide +kernel
  obtain ⟨c, first, plain⟩ := Option.any_eq_true _ _ |>.mp (starts _ listed)
  obtain ⟨noMinus, noDigit⟩ : c ≠ '-' ∧ c.isDigit = false := by simpa using plain
  rw [toList_toLower, List.head?_map, Option.map_eq_some_iff] at first
  obtain ⟨d, start, rfl⟩ := first
  rcases head?_intLiteral start with rfl | digit
  · exact noMinus rfl
  · rw [toLower_of_isDigit digit, digit] at noDigit
    cases noDigit

/-- The digits of an integer are not interrupted. -/
theorem filter_intLiteral (n : Int) :
    (intLiteral n).toList.filter (· != '_') = (intLiteral n).toList := by
  rw [List.filter_eq_self]
  intro c member
  rw [bne_iff_ne]
  rintro rfl
  rw [toList_intLiteral, List.mem_append] at member
  rcases member with sign | digit
  · split at sign
    · simp at sign
    · cases sign
  · exact Nat.underscore_not_in_toDigits digit

theorem parse_intLiteral (least : minInt ≤ n) (greatest : n ≤ maxInt) :
    parse (literal (.int n)) = .int n := by
  show parse (intLiteral n) = .int n
  simp only [parse, trim_intLiteral, String.ofList_toList, keyword?_intLiteral,
    number?, filter_intLiteral, readInt_intLiteral least greatest]

end Integers

/-! ## All values -/

/-- A constant that is written in one line: all integers of 64 bits and all
strings are among them. -/
inductive HasLiteral : DefaultValue → Prop
  | null : HasLiteral .null
  | bool (value : Bool) : HasLiteral (.bool value)
  | int {value : Int} (least : minInt ≤ value) (greatest : value ≤ maxInt) :
      HasLiteral (.int value)
  | string (value : String) : HasLiteral (.string value)

section Values

variable {text : String} {value : DefaultValue}

/-- What a text can stand for: such a constant, a float or the empty array, or
else the text is kept. -/
inductive Reads (text : String) : DefaultValue → Prop
  | constant {value : DefaultValue} (known : HasLiteral value) : Reads text value
  | float (value : Number.Binary64) : Reads text (.float value)
  | emptyArray : Reads text .emptyArray
  | expression : Reads text (.expression (String.ofList (trim text.toList)))

theorem reads_keyword? {word : String} (found : keyword? word = some value) :
    Reads text value := by
  unfold keyword? at found
  split at found <;> cases found
  case h_1 | h_2 => exact .constant .null
  case h_3 | h_4 | h_5 | h_6 => exact .constant (.bool _)
  case h_7 | h_8 => exact .emptyArray

theorem reads_number? {cs : List Char} (found : number? cs = some value) :
    Reads text value := by
  rw [number?] at found
  split at found
  · rename_i n read
    obtain ⟨least, greatest⟩ := inRange_of_readInt read
    cases found
    exact .constant (.int least greatest)
  · split at found
    · obtain ⟨float, -, rfl⟩ := Option.map_eq_some_iff.mp found
      exact .float float
    · cases found

theorem reads_parse (text : String) : Reads text (parse text) := by
  rw [parse]
  cases word : keyword? (String.ofList (trim text.toList)).toLower with
  | some value => exact reads_keyword? word
  | none =>
      cases number : number? (trim text.toList) with
      | some value => exact reads_number? number
      | none =>
          rcases quoted?_cases (trim text.toList) with ⟨-, s, found⟩ | ⟨-, found⟩
          · simp only [found, Option.getD_some]
            exact .constant (.string s)
          · simp only [found, Option.getD_none]
            exact .expression

theorem HasLiteral.parse_eq (known : HasLiteral value) :
    parse (literal value) = value := by
  cases known with
  | null => decide +kernel
  | bool value => cases value <;> decide +kernel
  | int least greatest => exact parse_intLiteral least greatest
  | string value => exact parse_stringLiteral value

/--
The literal of the value of a text is read as that value unless it is a float or
the empty array.  Among these values are the constants of every kind, with all
integers of 64 bits and all strings.
-/
theorem parse_literal :
    (∀ text, (∀ float, parse text ≠ .float float) → parse text ≠ .emptyArray →
      parse (literal (parse text)) = parse text) ∧
    ∀ value, HasLiteral value → parse (literal value) = value := by
  constructor
  · intro text noFloat filled
    have reads := reads_parse text
    generalize same : parse text = value at reads noFloat filled ⊢
    cases reads with
    | constant known => exact known.parse_eq
    | float float => exact absurd rfl (noFloat float)
    | emptyArray => exact absurd rfl filled
    | expression =>
        show parse (String.ofList (trim text.toList)) = _
        rw [parse_trim, same]
  · intro value known
    exact known.parse_eq

/-- A string in double quotes, with blanks around it. -/
def quotedText : String := " \"it's \\\\ 1\" "

/-- A string in double quotes comes back from single quotes, and the least integer
comes back from its digits. -/
theorem parse_literal_quoted :
    (∀ float, parse quotedText ≠ .float float) ∧
      parse quotedText ≠ .emptyArray ∧
      literal (parse quotedText) = "'it\\'s \\\\ 1'" ∧
      parse (literal (parse quotedText)) = parse quotedText ∧
      HasLiteral (.int minInt) ∧ parse (literal (.int minInt)) = .int minInt := by
  have value : parse quotedText = .string "it's \\ 1" := by
    decide +kernel
  have noFloat : ∀ float, parse quotedText ≠ .float float := by
    rw [value]
    nofun
  have filled : parse quotedText ≠ .emptyArray := by
    rw [value]
    nofun
  have written : literal (parse quotedText) = "'it\\'s \\\\ 1'" := by
    rw [value]
    decide +kernel
  have least : HasLiteral (.int minInt) := .int (by decide) (by decide)
  exact ⟨noFloat, filled, written, parse_literal.1 _ noFloat filled, least,
    parse_literal.2 _ least⟩

end Values

end BusReference.Php.DefaultValue
