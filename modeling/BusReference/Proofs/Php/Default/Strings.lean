import BusReference.Php.Lexeme
import BusReference.Proofs.Php.Default.Literals
import BusReference.Proofs.Text.ByteOrder
import BusReference.Text.Hex

/-!
# Strings of default values

A string of PHP is a sequence of bytes, written between quotes as a sequence of
parts: characters that stand for themselves, and escapes.  In single quotes only
the backslash and the quote can be escaped.  In double quotes there are more
escapes, for control characters and for bytes and code points by their numbers.

A default value that is a string in quotes is printed between single quotes
again.  This is what `var_export` prints for the value of the string exactly if
every escape is one that the reading of default values knows; the others are
kept as they are written, which takes more bytes than what they stand for.
-/

namespace BusReference.Php

open BusReference.Text (bytes bytes_eq)
open BusReference.Text.Blank (isBlank trim trim_eq_self)
open String (utf8EncodeChar)

/-! ## Strings as they are written -/

/-- A part of a string between its quotes. -/
inductive StringPart where
  /-- A character that stands for itself. -/
  | plain (c : Char)
  /-- A backslash that starts no escape, and the character after it. -/
  | kept (c : Char)
  /-- An escaped backslash, quote or dollar sign. -/
  | mark (c : Char)
  /-- The letter of a control character, and the code of that character. -/
  | control (letter : Char) (code : UInt8)
  | octal (digits : List Char)
  | hexadecimal (letter : Char) (digits : List Char)
  | codePoint (digits : List Char)
  deriving DecidableEq, Repr

/-- A string in quotes, with the mark of a binary string or without. -/
structure StringLiteral where
  marked : Bool
  parts : List StringPart
  deriving DecidableEq, Repr

namespace StringPart

/-- The text of a part. -/
def text : StringPart → List Char
  | plain c => [c]
  | kept c | mark c | control c _ => ['\\', c]
  | octal digits => '\\' :: digits
  | hexadecimal letter digits => '\\' :: letter :: digits
  | codePoint digits => '\\' :: 'u' :: '{' :: (digits ++ ['}'])

/-- The number that the digits spell. -/
def number (base : Nat) (digits : List Char) : Nat :=
  digits.foldl (fun n c => base * n + (Text.Hex.digit? c).getD 0) 0

/-- The bytes of a code point in UTF-8.  Surrogates have three, like their
neighbours. -/
def codePointBytes (n : Nat) : List UInt8 :=
  if n < 0x80 then [.ofNat n]
  else if n < 0x800 then [.ofNat (n / 0x40 + 0xc0), .ofNat (n % 0x40 + 0x80)]
  else if n < 0x10000 then
    [.ofNat (n / 0x1000 + 0xe0), .ofNat (n / 0x40 % 0x40 + 0x80), .ofNat (n % 0x40 + 0x80)]
  else
    [.ofNat (n / 0x40000 + 0xf0), .ofNat (n / 0x1000 % 0x40 + 0x80),
      .ofNat (n / 0x40 % 0x40 + 0x80), .ofNat (n % 0x40 + 0x80)]

/-- The bytes that a part stands for.  A number of one byte is cut to its lowest
eight bits. -/
def value : StringPart → List UInt8
  | plain c | mark c => utf8EncodeChar c
  | kept c => utf8EncodeChar '\\' ++ utf8EncodeChar c
  | control _ code => [code]
  | octal digits => [.ofNat (number 8 digits)]
  | hexadecimal _ digits => [.ofNat (number 16 digits)]
  | codePoint digits => codePointBytes (number 16 digits)

/-! ## Reading of strings -/

/-- The code of the control character that a letter stands for. -/
def control? : Char → Option UInt8
  | 'n' => some 0x0a
  | 't' => some 0x09
  | 'r' => some 0x0d
  | 'v' => some 0x0b
  | 'e' => some 0x1b
  | 'f' => some 0x0c
  | _ => none

def isOctal (c : Char) : Bool := '0' ≤ c && c ≤ '7'

def isHexadecimal (c : Char) : Bool := (Text.Hex.digit? c).isSome

/-- The part that a backslash starts in single quotes, by the character after it. -/
def singleEscape (c : Char) : StringPart :=
  if c = '\\' ∨ c = '\'' then .mark c else .kept c

/-- The code point between the braces that the text starts with. -/
def codePoint? (cs : List Char) : Option StringPart :=
  let digits := cs.tail.takeWhile isHexadecimal
  if digits ≠ [] ∧ (cs.drop (digits.length + 1)).head? = some '}' ∧
      number 16 digits ≤ 0x10ffff then
    some (.codePoint digits)
  else none

/-- The part that a backslash starts in double quotes, by the character after it
and the text from there on.  A code point that does not exist is refused. -/
def doubleEscape? (c : Char) (cs : List Char) : Option StringPart :=
  match control? c with
  | some code => some (.control c code)
  | none =>
    if c = '\\' ∨ c = '"' ∨ c = '$' then some (.mark c)
    else if isOctal c then some (.octal (c :: (cs.take 2).takeWhile isOctal))
    else if (c = 'x' ∨ c = 'X') ∧ cs.head?.any isHexadecimal then
      some (.hexadecimal c ((cs.take 2).takeWhile isHexadecimal))
    else if c = 'u' ∧ cs.head? = some '{' then codePoint? cs
    else some (.kept c)

/-- The part that a backslash starts in quotes of the given kind. -/
def escape? (quote c : Char) (cs : List Char) : Option StringPart :=
  if quote = '"' then doubleEscape? c cs else some (singleEscape c)

/-- A variable starts here if the quotes are double. -/
def startsVariable (c : Char) (cs : List Char) : Bool :=
  (c == '$' && cs.head?.any fun d => Lexeme.Reading.isNameStart d || d == '{') ||
    (c == '{' && cs.head? == some '$')

end StringPart

namespace StringLiteral

open StringPart

/-- The parts of a string up to its closing quote, with which the text has to
end.  In double quotes there is no variable among them. -/
def readParts (quote : Char) : List Char → Option (List StringPart)
  | [] => none
  | c :: cs =>
    if c = quote then if cs = [] then some [] else none
    else if c = '\\' then
      match cs with
      | [] => none
      | d :: ds =>
        match escape? quote d ds with
        | none => none
        | some part =>
          (readParts quote ((d :: ds).drop (part.text.length - 1))).map (part :: ·)
    else if quote = '"' ∧ startsVariable c cs then none
    else (readParts quote cs).map (.plain c :: ·)
  termination_by cs => cs.length
  decreasing_by all_goals simp only [List.length_drop, List.length_cons]; omega

/-- The string in quotes that a text is. -/
def readQuoted (marked : Bool) : List Char → Option StringLiteral
  | [] => none
  | c :: cs =>
    if c = '\'' ∨ c = '"' then (readParts c cs).map fun parts => { marked, parts } else none

/-- The string that a text is, if it is one without variables in it.  A letter in
front marks it as binary, which makes no difference for its value. -/
def read? : List Char → Option StringLiteral
  | [] => none
  | c :: cs => if c = 'b' ∨ c = 'B' then readQuoted true cs else readQuoted false (c :: cs)

/-- The bytes of a string. -/
def value (string : StringLiteral) : List UInt8 :=
  string.parts.flatMap StringPart.value

/-- What `var_export` prints for a byte in quotes.  The quotes are interrupted for
a null. -/
def exportByte (b : UInt8) : List UInt8 :=
  if b = 0 then bytes "' . \"\\0\" . '"
  else if b = 0x27 ∨ b = 0x5c then [0x5c, b]
  else [b]

/-- What `var_export` prints for a string of the given bytes. -/
def varExport (value : List UInt8) : List UInt8 :=
  0x27 :: (value.flatMap exportByte ++ [0x27])

end StringLiteral

/-! ## Parts -/

namespace StringPart

open DefaultValue (escaped? decodeSingle decodeDouble decodeSingle_cons
  decodeSingle_escaped)

/-- What the parts of a string look like in quotes of the given kind. -/
inductive Fits : Char → StringPart → Prop
  | plain {quote c : Char} (noEscape : c ≠ '\\') : Fits quote (.plain c)
  | keptSingle {c : Char} (noEscape : c ≠ '\\') (noQuote : c ≠ '\'') :
      Fits '\'' (.kept c)
  | keptDouble {c : Char} (noEscape : c ≠ '\\') (unknown : escaped? c = none) :
      Fits '"' (.kept c)
  | markSingle {c : Char} (known : c = '\\' ∨ c = '\'') : Fits '\'' (.mark c)
  | markDouble {c : Char} (known : c = '\\' ∨ c = '"' ∨ c = '$') : Fits '"' (.mark c)
  | control {letter : Char} {code : UInt8} (known : control? letter = some code) :
      Fits '"' (.control letter code)
  | octal {c : Char} {digits : List Char}
      (octal : ∀ d ∈ c :: digits, isOctal d = true) : Fits '"' (.octal (c :: digits))
  | hexadecimal {letter c : Char} {digits : List Char}
      (known : letter = 'x' ∨ letter = 'X')
      (hexadecimal : ∀ d ∈ c :: digits, isHexadecimal d = true) :
      Fits '"' (.hexadecimal letter (c :: digits))
  | codePoint {c : Char} {digits : List Char}
      (hexadecimal : ∀ d ∈ c :: digits, isHexadecimal d = true) :
      Fits '"' (.codePoint (c :: digits))

section Reading

variable {quote c : Char} {cs : List Char} {part : StringPart}

theorem singleEscape_spec (c : Char) (cs : List Char) :
    Fits '\'' (singleEscape c) ∧ (singleEscape c).text <+: '\\' :: c :: cs := by
  rw [singleEscape]
  split
  · rename_i known
    exact ⟨.markSingle known, cs, rfl⟩
  · rename_i unknown
    rw [not_or] at unknown
    exact ⟨.keptSingle unknown.1 unknown.2, cs, rfl⟩

theorem codePoint?_spec
    (braced : cs.head? = some '{') (found : codePoint? cs = some part) :
    Fits '"' part ∧ part.text <+: '\\' :: 'u' :: cs := by
  obtain ⟨rest, rfl⟩ := List.head?_eq_some_iff.mp braced
  rw [codePoint?, List.tail_cons] at found
  obtain ⟨⟨filled, closed, -⟩, same⟩ := Option.ite_none_right_eq_some.mp found
  cases same
  have digits : ∀ d ∈ rest.takeWhile isHexadecimal, isHexadecimal d = true :=
    fun d => List.mem_takeWhile_imp
  obtain ⟨after, text⟩ := List.takeWhile_prefix isHexadecimal (l := rest)
  generalize rest.takeWhile isHexadecimal = ds at *
  subst text
  rw [List.drop_succ_cons, List.drop_left] at closed
  obtain ⟨after, rfl⟩ := List.head?_eq_some_iff.mp closed
  constructor
  · obtain ⟨d, ds, rfl⟩ := List.exists_cons_of_ne_nil filled
    exact .codePoint digits
  · exact ⟨after, by simp [text]⟩

/-- A character that starts no escape is no known one. -/
theorem escaped?_eq_none
    (noControl : control? c = none) (noMark : ¬ (c = '\\' ∨ c = '"' ∨ c = '$')) :
    escaped? c = none := by
  unfold escaped?
  split <;> simp_all [control?]

/-- At most two digits are taken, and one if the text starts with it. -/
theorem exists_takeWhile_take_two
    {p : Char → Bool} (first : cs.head?.any p = true) :
    ∃ d ds, (cs.take 2).takeWhile p = d :: ds ∧ (∀ e ∈ d :: ds, p e = true) ∧
      d :: ds <+: cs := by
  cases cs with
  | nil => cases first
  | cons d cs =>
      have digit : p d = true := first
      have digits : ((d :: cs).take 2).takeWhile p = d :: (cs.take 1).takeWhile p := by
        rw [List.take_succ_cons, List.takeWhile_cons_of_pos digit]
      refine ⟨d, (cs.take 1).takeWhile p, digits, ?_, ?_⟩
      · rw [← digits]
        exact fun e => List.mem_takeWhile_imp
      · rw [← digits]
        exact (List.takeWhile_prefix p).trans (List.take_prefix 2 _)

theorem doubleEscape?_spec (found : doubleEscape? c cs = some part) :
    Fits '"' part ∧ part.text <+: '\\' :: c :: cs := by
  have within : ∀ {ds : List Char}, ds <+: cs → '\\' :: c :: ds <+: '\\' :: c :: cs :=
    fun inside => (List.prefix_cons_inj _).mpr ((List.prefix_cons_inj _).mpr inside)
  rw [doubleEscape?] at found
  split at found
  · rename_i code known
    cases found
    exact ⟨.control known, within List.nil_prefix⟩
  rename_i noControl
  split at found
  · rename_i known
    cases found
    exact ⟨.markDouble known, within List.nil_prefix⟩
  rename_i noMark
  split at found
  · rename_i octal
    cases found
    constructor
    · apply Fits.octal
      rw [List.forall_mem_cons]
      exact ⟨octal, fun d => List.mem_takeWhile_imp⟩
    · exact within ((List.takeWhile_prefix isOctal).trans (List.take_prefix 2 cs))
  split at found
  · rename_i marked
    cases found
    obtain ⟨d, ds, digits, hexadecimal, first⟩ := exists_takeWhile_take_two marked.2
    rw [digits]
    exact ⟨.hexadecimal marked.1 hexadecimal, within first⟩
  split at found
  · rename_i braced
    obtain ⟨rfl, braced⟩ := braced
    exact codePoint?_spec braced found
  · cases found
    refine ⟨.keptDouble ?_ (escaped?_eq_none noControl noMark), within List.nil_prefix⟩
    exact fun backslash => noMark (.inl backslash)

theorem escape?_spec
    (mark : DefaultValue.IsStringQuote quote) (found : escape? quote c cs = some part) :
    Fits quote part ∧ part.text <+: '\\' :: c :: cs := by
  rw [escape?] at found
  rcases mark with rfl | rfl
  · cases found
    exact singleEscape_spec c cs
  · exact doubleEscape?_spec found

end Reading

/-- The text that default values have in place of a part. -/
def image : StringPart → List Char
  | mark c => [c]
  | control letter code =>
    match escaped? letter with
    | some c => [c]
    | none => (control letter code).text
  | part => part.text

/-- The part is read as PHP reads it. -/
def IsKnown : StringPart → Prop
  | plain _ | kept _ | mark _ => True
  | control letter _ => letter = 'n' ∨ letter = 't' ∨ letter = 'r'
  | octal _ | hexadecimal _ _ | codePoint _ => False

instance : DecidablePred IsKnown
  | plain _ | kept _ | mark _ => inferInstanceAs (Decidable True)
  | control letter _ =>
    inferInstanceAs (Decidable (letter = 'n' ∨ letter = 't' ∨ letter = 'r'))
  | octal _ | hexadecimal _ _ | codePoint _ => inferInstanceAs (Decidable False)

section Decoding

variable {c d : Char} {cs ds : List Char} {part : StringPart}

theorem Fits.decodeSingle_append (fits : Fits '\'' part) (cs : List Char) :
    decodeSingle (part.text ++ cs) = part.image ++ decodeSingle cs := by
  cases fits with
  | plain noEscape => exact decodeSingle_cons noEscape cs
  | keptSingle noEscape noQuote =>
      rename_i c
      calc decodeSingle ('\\' :: c :: cs)
        _ = '\\' :: decodeSingle (c :: cs) := by
            rw [decodeSingle]
            · rintro rest _ same
              exact noEscape (List.cons.inj same).1
            · rintro rest _ same
              exact noQuote (List.cons.inj same).1
        _ = '\\' :: c :: decodeSingle cs := by rw [decodeSingle_cons noEscape]
  | markSingle known => exact decodeSingle_escaped known cs

theorem decodeDouble_cons (noEscape : c ≠ '\\') (cs : List Char) :
    decodeDouble (c :: cs) = c :: decodeDouble cs := by
  cases cs with
  | nil => rfl
  | cons d cs => simp only [decodeDouble, if_neg noEscape]

theorem decodeDouble_append (noEscape : '\\' ∉ ds) (cs : List Char) :
    decodeDouble (ds ++ cs) = ds ++ decodeDouble cs := by
  induction ds with
  | nil => rfl
  | cons d ds ih =>
      rw [List.mem_cons, not_or] at noEscape
      rw [List.cons_append, decodeDouble_cons (Ne.symm noEscape.1), ih noEscape.2]
      rfl

theorem decodeDouble_escaped (known : escaped? c = some d) (cs : List Char) :
    decodeDouble ('\\' :: c :: cs) = d :: decodeDouble cs := by
  rw [decodeDouble, if_pos rfl, known]

/-- An escape that is not known stays, with all characters up to the next one. -/
theorem decodeDouble_unknown
    (unknown : escaped? d = none) (noEscape : '\\' ∉ d :: ds) (cs : List Char) :
    decodeDouble ('\\' :: d :: ds ++ cs) = '\\' :: d :: ds ++ decodeDouble cs := by
  have rest := decodeDouble_append noEscape cs
  rw [List.cons_append, List.cons_append, List.cons_append] at *
  rw [decodeDouble, if_pos rfl, unknown]
  exact congrArg _ rest

theorem escaped?_of_isOctal (octal : isOctal c = true) : escaped? c = none := by
  unfold escaped?
  split <;> first | rfl | exact absurd octal (by decide)

theorem Fits.decodeDouble_append (fits : Fits '"' part) (cs : List Char) :
    decodeDouble (part.text ++ cs) = part.image ++ decodeDouble cs := by
  cases fits with
  | plain noEscape => exact decodeDouble_cons noEscape cs
  | keptDouble noEscape unknown =>
      apply decodeDouble_unknown unknown
      simpa using Ne.symm noEscape
  | markDouble known =>
      rcases known with rfl | rfl | rfl <;> exact decodeDouble_escaped rfl cs
  | @control letter code known =>
      rw [image]
      split
      · rename_i escaped
        exact decodeDouble_escaped escaped cs
      · rename_i unknown
        apply decodeDouble_unknown unknown
        rw [List.mem_singleton]
        rintro rfl
        cases known
  | @octal c digits octal =>
      apply decodeDouble_unknown (escaped?_of_isOctal (octal c List.mem_cons_self))
      intro member
      exact absurd (octal _ member) (by decide)
  | @hexadecimal letter c digits known hexadecimal =>
      have unknown : escaped? letter = none := by
        rcases known with rfl | rfl <;> rfl
      apply decodeDouble_unknown unknown
      intro member
      rcases List.mem_cons.mp member with rfl | digit
      · rcases known with known | known <;> cases known
      · exact absurd (hexadecimal _ digit) (by decide)
  | @codePoint c digits hexadecimal =>
      apply decodeDouble_unknown rfl
      intro member
      have digit : '\\' ∈ c :: digits := by simpa using member
      exact absurd (hexadecimal _ digit) (by decide)

end Decoding

section Bytes

/-- The bytes of a text in UTF-8. -/
theorem bytes_ofList (cs : List Char) :
    bytes (String.ofList cs) = cs.flatMap utf8EncodeChar := by
  rw [bytes_eq, String.toList_ofList]

theorem length_le_utf8 (cs : List Char) :
    cs.length ≤ (cs.flatMap utf8EncodeChar).length := by
  induction cs with
  | nil => exact Nat.le_refl 0
  | cons c cs ih =>
      obtain ⟨b, bs, encoded⟩ := Text.exists_utf8EncodeChar_eq_cons c
      rw [List.flatMap_cons, encoded, List.length_append, List.length_cons,
        List.length_cons]
      omega

theorem length_codePointBytes_le (n : Nat) : (codePointBytes n).length ≤ 4 := by
  rw [codePointBytes]
  repeat' split
  all_goals simp

/-- An escape that is kept in full takes more bytes than it stands for. -/
theorem value_length_lt_of_image_eq
    {part : StringPart} (kept : part.image = part.text)
    (longer : part.value.length < part.text.length) :
    part.value.length < (part.image.flatMap utf8EncodeChar).length := by
  rw [kept]
  exact Nat.lt_of_lt_of_le longer (length_le_utf8 part.text)

/-- A part that is known stands for what is read, and any other is read as a longer
text. -/
theorem Fits.value_cases {quote : Char} {part : StringPart} (fits : Fits quote part) :
    part.IsKnown ∧ part.image.flatMap utf8EncodeChar = part.value ∨
      ¬ part.IsKnown ∧
        part.value.length < (part.image.flatMap utf8EncodeChar).length := by
  cases fits with
  | plain | markSingle | markDouble => exact .inl ⟨trivial, List.flatMap_singleton _ _⟩
  | keptSingle | keptDouble => exact .inl ⟨trivial, by simp [image, text, value]⟩
  | control known =>
      unfold control? at known
      split at known <;> cases known <;> decide
  | octal =>
      refine .inr ⟨not_false, value_length_lt_of_image_eq rfl ?_⟩
      simp [value, text]
  | hexadecimal =>
      refine .inr ⟨not_false, value_length_lt_of_image_eq rfl ?_⟩
      simp [value, text]
  | codePoint =>
      refine .inr ⟨not_false, value_length_lt_of_image_eq rfl ?_⟩
      apply Nat.lt_of_le_of_lt (length_codePointBytes_le _)
      simp [text]

theorem Fits.value_length_le {quote : Char} {part : StringPart} (fits : Fits quote part) :
    part.value.length ≤ (part.image.flatMap utf8EncodeChar).length := by
  rcases fits.value_cases with ⟨-, same⟩ | ⟨-, longer⟩
  · rw [same]
  · exact Nat.le_of_lt longer

theorem Fits.utf8_image_eq_value_iff
    {quote : Char} {part : StringPart} (fits : Fits quote part) :
    part.image.flatMap utf8EncodeChar = part.value ↔ part.IsKnown := by
  rcases fits.value_cases with ⟨known, same⟩ | ⟨unknown, longer⟩
  · exact iff_of_true same known
  · refine iff_of_false ?_ unknown
    intro same
    rw [same] at longer
    exact Nat.lt_irrefl _ longer

end Bytes

end StringPart

/-! ## Whole strings -/

namespace StringLiteral

open StringPart

section Parts

variable {quote : Char} {cs : List Char} {parts : List StringPart}

/-- What follows a part is what is left when its text is dropped. -/
theorem text_append_drop
    {part : StringPart} {c : Char} (first : part.text <+: c :: cs) :
    part.text ++ cs.drop (part.text.length - 1) = c :: cs := by
  obtain ⟨rest, same⟩ := first
  cases text : part.text with
  | nil => cases part <;> cases text
  | cons d ds =>
      rw [text, List.cons_append, List.cons.injEq] at same
      obtain ⟨rfl, rfl⟩ := same
      rw [List.length_cons, Nat.add_sub_cancel, List.drop_left]
      rfl

/-- The parts that are read make up the text. -/
theorem readParts_spec
    (mark : DefaultValue.IsStringQuote quote)
    (read : readParts quote cs = some parts) :
    (∀ part ∈ parts, part.Fits quote) ∧
      cs = parts.flatMap StringPart.text ++ [quote] := by
  fun_induction readParts quote cs generalizing parts with
  | case1 | case3 | case4 | case5 | case7 => cases read
  | case2 =>
      cases read
      exact ⟨nofun, rfl⟩
  | case6 d ds part found other ih =>
      obtain ⟨fits, first⟩ := escape?_spec mark found
      obtain ⟨later, readLater, rfl⟩ := Option.map_eq_some_iff.mp read
      obtain ⟨fitsLater, rest⟩ := ih readLater
      constructor
      · exact List.forall_mem_cons.mpr ⟨fits, fitsLater⟩
      · rw [List.flatMap_cons, List.append_assoc, ← rest]
        exact (text_append_drop first).symm
  | case8 c cs other noEscape noVariable ih =>
      obtain ⟨later, readLater, rfl⟩ := Option.map_eq_some_iff.mp read
      obtain ⟨fitsLater, rest⟩ := ih readLater
      constructor
      · exact List.forall_mem_cons.mpr ⟨.plain noEscape, fitsLater⟩
      · rw [List.flatMap_cons, List.append_assoc, ← rest]
        rfl

open DefaultValue (decodeSingle decodeDouble parse literal parse_single parse_double)

theorem decodeSingle_parts (fits : ∀ part ∈ parts, part.Fits '\'') :
    decodeSingle (parts.flatMap StringPart.text) = parts.flatMap StringPart.image := by
  induction parts with
  | nil => rfl
  | cons part parts ih =>
      rw [List.forall_mem_cons] at fits
      rw [List.flatMap_cons, fits.1.decodeSingle_append, ih fits.2, List.flatMap_cons]

theorem decodeDouble_parts (fits : ∀ part ∈ parts, part.Fits '"') :
    decodeDouble (parts.flatMap StringPart.text) = parts.flatMap StringPart.image := by
  induction parts with
  | nil => rfl
  | cons part parts ih =>
      rw [List.forall_mem_cons] at fits
      rw [List.flatMap_cons, fits.1.decodeDouble_append, ih fits.2, List.flatMap_cons]

/-- The string that a text in quotes is read as. -/
theorem parse_parts
    (mark : DefaultValue.IsStringQuote quote)
    (fits : ∀ part ∈ parts, part.Fits quote) :
    parse (String.ofList (quote :: (parts.flatMap StringPart.text ++ [quote]))) =
      .string (String.ofList (parts.flatMap StringPart.image)) := by
  rcases mark with rfl | rfl
  · rw [parse_single, decodeSingle_parts fits]
  · rw [parse_double, decodeDouble_parts fits]

end Parts

/-! ## Printing -/

section Printing

variable {xs ys : List UInt8}

/-- A byte in quotes that are not interrupted. -/
def escapeByte (b : UInt8) : List UInt8 :=
  if b = 0x27 ∨ b = 0x5c then [0x5c, b] else [b]

theorem varExport_eq (noNull : 0 ∉ xs) :
    varExport xs = 0x27 :: (xs.flatMap escapeByte ++ [0x27]) := by
  have same : xs.flatMap exportByte = xs.flatMap escapeByte := by
    apply List.flatMap_congr
    intro b member
    rw [exportByte, if_neg, escapeByte]
    rintro rfl
    exact noNull member
  rw [varExport, same]

theorem escapeByte_append_inj {x y : UInt8}
    (same : escapeByte x ++ xs = escapeByte y ++ ys) : x = y ∧ xs = ys := by
  unfold escapeByte at same
  split at same <;> split at same <;> simp_all

theorem flatMap_escapeByte_inj :
    xs.flatMap escapeByte = ys.flatMap escapeByte ↔ xs = ys := by
  have filled : ∀ x, escapeByte x ≠ [] := by
    intro x
    unfold escapeByte
    split <;> exact List.cons_ne_nil _ _
  refine ⟨?_, congrArg _⟩
  induction xs generalizing ys with
  | nil =>
      intro same
      cases ys with
      | nil => rfl
      | cons y ys => exact absurd (List.append_eq_nil_iff.mp same.symm).1 (filled y)
  | cons x xs ih =>
      intro same
      cases ys with
      | nil => exact absurd (List.append_eq_nil_iff.mp same).1 (filled x)
      | cons y ys =>
          obtain ⟨rfl, later⟩ := escapeByte_append_inj same
          rw [ih later]

/-- No other character has the byte of a quote or a backslash in it. -/
theorem not_escaped_of_mem_utf8
    {c : Char} (noBackslash : c ≠ '\\') (noQuote : c ≠ '\'') :
    ∀ b ∈ utf8EncodeChar c, ¬ (b = 0x27 ∨ b = 0x5c) := by
  have code : c.val.toNat ≠ 0x27 ∧ c.val.toNat ≠ 0x5c := by
    constructor
    · exact fun same => noQuote (Char.toNat_inj.mp same)
    · exact fun same => noBackslash (Char.toNat_inj.mp same)
  simp only [String.utf8EncodeChar]
  repeat' split
  all_goals
    simp only [List.forall_mem_cons, List.not_mem_nil, false_imp_iff, implies_true,
      and_true, ← UInt8.toNat_inj, UInt8.toNat_ofNat', UInt8.reduceToNat]
    omega

theorem flatMap_escapeByte_utf8
    {c : Char} (noBackslash : c ≠ '\\') (noQuote : c ≠ '\'') :
    (utf8EncodeChar c).flatMap escapeByte = utf8EncodeChar c := by
  calc (utf8EncodeChar c).flatMap escapeByte
    _ = (utf8EncodeChar c).flatMap fun b => [b] := by
        apply List.flatMap_congr
        intro b member
        exact if_neg (not_escaped_of_mem_utf8 noBackslash noQuote b member)
    _ = utf8EncodeChar c := List.flatMap_singleton' _

theorem utf8_encodeSingle (cs : List Char) :
    (DefaultValue.encodeSingle cs).flatMap utf8EncodeChar =
      (cs.flatMap utf8EncodeChar).flatMap escapeByte := by
  induction cs with
  | nil => rfl
  | cons c cs ih =>
      rw [DefaultValue.encodeSingle, List.flatMap_cons, List.flatMap_append, ← ih]
      split
      · rename_i escaped
        rcases escaped with rfl | rfl
        · rfl
        · rfl
      · rename_i plain
        rw [not_or] at plain
        rw [flatMap_escapeByte_utf8 plain.1 plain.2, List.flatMap_cons]

theorem bytes_stringLiteral (cs : List Char) :
    bytes (DefaultValue.literal (.string (String.ofList cs))) =
      0x27 :: ((cs.flatMap utf8EncodeChar).flatMap escapeByte ++ [0x27]) := by
  rw [bytes_eq, DefaultValue.toList_stringLiteral, String.toList_ofList,
    List.flatMap_cons, List.flatMap_append, utf8_encodeSingle]
  rfl

end Printing

/-! ## Printed defaults -/

section Defaults

variable {quote : Char} {parts : List StringPart}

theorem length_flatMap_le
    {α β : Type} {f g : α → List β} {as : List α}
    (shorter : ∀ a ∈ as, (g a).length ≤ (f a).length) :
    (as.flatMap g).length ≤ (as.flatMap f).length := by
  induction as with
  | nil => exact Nat.le_refl 0
  | cons a as ih =>
      rw [List.forall_mem_cons] at shorter
      rw [List.flatMap_cons, List.flatMap_cons, List.length_append, List.length_append]
      exact Nat.add_le_add shorter.1 (ih shorter.2)

/-- Two texts that are put together from parts, the parts of one never longer than
those of the other, are the same only part by part. -/
theorem flatMap_eq_flatMap_iff
    {α β : Type} {f g : α → List β} {as : List α}
    (shorter : ∀ a ∈ as, (g a).length ≤ (f a).length) :
    as.flatMap f = as.flatMap g ↔ ∀ a ∈ as, f a = g a := by
  refine ⟨?_, List.flatMap_congr⟩
  induction as with
  | nil => exact fun _ => nofun
  | cons a as ih =>
      rw [List.forall_mem_cons] at shorter ⊢
      intro same
      have rest := length_flatMap_le shorter.2
      have lengths := congrArg List.length same
      rw [List.flatMap_cons, List.flatMap_cons] at same lengths
      rw [List.length_append, List.length_append] at lengths
      have first : (f a).length = (g a).length := by omega
      obtain ⟨head, tail⟩ := List.append_inj same first
      exact ⟨head, ih shorter.2 tail⟩

/-- A string in quotes is printed as it should be exactly if all its parts are
known. -/
theorem bytes_literal_parse_parts_iff
    (mark : DefaultValue.IsStringQuote quote)
    (fits : ∀ part ∈ parts, part.Fits quote)
    (noNull : 0 ∉ parts.flatMap StringPart.value) :
    bytes (DefaultValue.literal (DefaultValue.parse (String.ofList
        (quote :: (parts.flatMap StringPart.text ++ [quote]))))) =
        varExport (parts.flatMap StringPart.value) ↔
      ∀ part ∈ parts, part.IsKnown := by
  rw [parse_parts mark fits, bytes_stringLiteral, varExport_eq noNull, List.cons_inj_right,
    List.append_left_inj, flatMap_escapeByte_inj, List.flatMap_assoc,
    flatMap_eq_flatMap_iff fun part member => (fits part member).value_length_le]
  constructor
  · intro same part member
    exact (fits part member).utf8_image_eq_value_iff.mp (same part member)
  · intro known part member
    exact (fits part member).utf8_image_eq_value_iff.mpr (known part member)

section Marked

variable {mark quote : Char}

/-- A string with a mark has nothing to trim. -/
theorem trim_marked
    (isMark : mark = 'b' ∨ mark = 'B') (quoted : DefaultValue.IsStringQuote quote)
    (inner : List Char) :
    trim (mark :: quote :: (inner ++ [quote])) = mark :: quote :: (inner ++ [quote]) := by
  apply trim_eq_self
  · rintro c ⟨⟩
    rcases isMark with rfl | rfl <;> rfl
  · intro c last
    rw [← List.cons_append, ← List.cons_append, List.getLast?_concat] at last
    cases last
    rcases quoted with rfl | rfl <;> rfl

/-- It does not start with a quote. -/
theorem not_isQuoted_marked (isMark : mark = 'b' ∨ mark = 'B') (rest : List Char) :
    ¬ DefaultValue.IsQuoted (mark :: rest) := by
  rintro ⟨other, body, isQuote, same⟩
  obtain ⟨rfl, -⟩ := List.cons.inj same
  rcases isMark with rfl | rfl <;> rcases isQuote with same | same <;> cases same

/-- No word for a value starts like it, and no number has a quote. -/
theorem not_isPlainText_marked
    (isMark : mark = 'b' ∨ mark = 'B') (quoted : DefaultValue.IsStringQuote quote)
    (rest : List Char) :
    ¬ DefaultValue.IsPlainText (mark :: quote :: rest) := by
  rintro (listed | decimal)
  · have starts : ∀ word ∈ DefaultValue.keywords,
        word.toList.head? ≠ some 'b' := by
      decide +kernel
    apply starts _ listed
    rw [DefaultValue.toList_toLower, String.toList_ofList]
    rcases isMark with rfl | rfl <;> rfl
  · have numeric := decimal.isNumeric quote
    rcases quoted with rfl | rfl
    · exact absurd (numeric (by simp)) (by decide)
    · exact absurd (numeric (by simp)) (by decide)

/-- A string with a mark is no string in quotes, so its text is kept. -/
theorem literal_parse_marked
    (isMark : mark = 'b' ∨ mark = 'B') (quoted : DefaultValue.IsStringQuote quote)
    (inner : List Char) :
    DefaultValue.literal (DefaultValue.parse (String.ofList
        (mark :: quote :: (inner ++ [quote])))) =
      String.ofList (mark :: quote :: (inner ++ [quote])) := by
  have kept : DefaultValue.parse (String.ofList (mark :: quote :: (inner ++ [quote]))) =
      .expression (String.ofList (mark :: quote :: (inner ++ [quote]))) := by
    rw [DefaultValue.parse_eq_expression_iff, String.toList_ofList,
      trim_marked isMark quoted]
    exact ⟨rfl, not_isQuoted_marked isMark _, not_isPlainText_marked isMark quoted _⟩
  rw [kept]
  rfl

end Marked

theorem readQuoted_spec
    {marked : Bool} {cs : List Char} {string : StringLiteral}
    (read : readQuoted marked cs = some string) :
    string.marked = marked ∧ ∃ quote, DefaultValue.IsStringQuote quote ∧
      (∀ part ∈ string.parts, part.Fits quote) ∧
      cs = quote :: (string.parts.flatMap StringPart.text ++ [quote]) := by
  cases cs with
  | nil => cases read
  | cons c cs =>
      obtain ⟨quoted, read⟩ := Option.ite_none_right_eq_some.mp read
      obtain ⟨parts, readParts, rfl⟩ := Option.map_eq_some_iff.mp read
      obtain ⟨fits, text⟩ := readParts_spec quoted readParts
      exact ⟨rfl, c, quoted, fits, congrArg _ text⟩

/--
A default value that is a string without variables and null bytes is printed as
`var_export` prints the value of the string exactly if the string is not marked as
binary and none of its escapes is `\v`, `\e`, `\f` or a byte or code point by its
number.
-/
theorem literal_parse_eq_varExport_iff
    {text : String} {string : StringLiteral}
    (read : read? text.toList = some string) (noNull : 0 ∉ string.value) :
    bytes (DefaultValue.literal (DefaultValue.parse text)) = varExport string.value ↔
      string.marked = false ∧ ∀ part ∈ string.parts, part.IsKnown := by
  rw [← String.ofList_toList (s := text)]
  cases cs : text.toList with
  | nil =>
      rw [cs] at read
      cases read
  | cons c cs =>
      rw [cs, read?] at read
      split at read
      · rename_i isMark
        obtain ⟨marked, quote, quoted, fits, rfl⟩ := readQuoted_spec read
        refine iff_of_false ?_ fun known => ?_
        · rw [literal_parse_marked isMark quoted, bytes_ofList, List.flatMap_cons]
          intro same
          have first := congrArg List.head? same
          rcases isMark with rfl | rfl <;> cases first
        · rw [marked] at known
          exact Bool.false_ne_true known.1.symm
      · obtain ⟨unmarked, quote, quoted, fits, whole⟩ := readQuoted_spec read
        rw [whole, value, bytes_literal_parse_parts_iff quoted fits noNull, unmarked]
        exact (and_iff_right rfl).symm

end Defaults

/-- A string in double quotes with a quote and two escapes in it. -/
def priceText : String := "\"it's \\$5\\n\""

/-- The string that this text is. -/
def price : StringLiteral where
  marked := false
  parts :=
    [.plain 'i', .plain 't', .plain '\'', .plain 's', .plain ' ', .mark '$', .plain '5',
      .control 'n' 0x0a]

theorem literal_parse_eq_varExport_price :
    read? priceText.toList = some price ∧ 0 ∉ price.value ∧
      bytes (DefaultValue.literal (DefaultValue.parse priceText)) =
        varExport price.value := by
  have read : read? priceText.toList = some price := by decide +kernel
  have noNull : 0 ∉ price.value := by decide +kernel
  have known : price.marked = false ∧ ∀ part ∈ price.parts, part.IsKnown := by
    decide +kernel
  exact ⟨read, noNull, (literal_parse_eq_varExport_iff read noNull).mpr known⟩

/-- The letter A by its hexadecimal number is printed as it is written. -/
theorem literal_parse_hexadecimal :
    (read? "\"\\x41\"".toList).map value = some [0x41] ∧
      varExport [0x41] = bytes "'A'" ∧
      DefaultValue.literal (DefaultValue.parse "\"\\x41\"") = "'\\\\x41'" ∧
      bytes (DefaultValue.literal (DefaultValue.parse "\"\\x41\"")) ≠ varExport [0x41] := by
  decide +kernel

end StringLiteral

end BusReference.Php
