import BusReference.Php.Literal
import BusReference.Text.Hex
import BusReference.Text.Pieces

/-!
# Numbers and dates

Which words of a TOML file are numbers, truth values, or dates and times. Of these values nothing
but their kind is needed.
-/

namespace BusReference.Toml.Number

/-- Digits of a base, at least one, with single underscores between some of them: the digits
alone. -/
def digits? (base : Nat) (cs : List Char) : Option (List Char) :=
  let groups := Text.Pieces.splitOn '_' cs
  if groups.all fun group => (Text.Hex.number? base group).isSome then some groups.flatten else none

/-- The word without its sign. -/
def unsigned : List Char → List Char
  | '+' :: cs | '-' :: cs => cs
  | cs => cs

/-- Decimal digits of a whole number, which has no leading zero. -/
def whole? (cs : List Char) : Option (List Char) :=
  match digits? 10 cs with
  | some ('0' :: _ :: _) => none
  | found => found

/-- The number of values of 63 bits. -/
def bound : Nat := 0x8000000000000000

/-- The digits of a base spell a number that fits into 64 bits with a sign. -/
def fits (base : Nat) (negative : Bool) (digits : List Char) : Bool :=
  match Text.Hex.number? base digits with
  | none => false
  | some n => n < bound || (negative && n == bound)

/-- An integer in decimal digits, or without a sign in those of another base. -/
def isInteger (cs : List Char) : Bool :=
  match cs with
  | '0' :: 'x' :: ds => (digits? 16 ds).any (fits 16 false)
  | '0' :: 'o' :: ds => (digits? 8 ds).any (fits 8 false)
  | '0' :: 'b' :: ds => (digits? 2 ds).any (fits 2 false)
  | _ => (whole? (unsigned cs)).any (fits 10 (cs.head? == some '-'))

/-- The digits of an exponent with an optional sign. -/
def isExponent (cs : List Char) : Bool := (digits? 10 (unsigned cs)).isSome

/-- A whole number, which may be followed by a point with a fraction. -/
def isMantissa (cs : List Char) : Bool :=
  match Text.Pieces.cutAt '.' cs with
  | none => (whole? cs).isSome
  | some (before, after) => (whole? before).isSome && (digits? 10 after).isSome

/-- The word with every capital E as a small letter. -/
def smallE (cs : List Char) : List Char := cs.map fun c => if c = 'E' then 'e' else c

/-- A decimal number with a fraction or an exponent, in its form alone. -/
def isDecimal (cs : List Char) : Bool :=
  match Text.Pieces.cutAt 'e' (smallE cs) with
  | none => cs.contains '.' && isMantissa cs
  | some (before, after) => isMantissa before && isExponent after

/-- A decimal number is too great for a float. -/
def overflows (cs : List Char) : Bool :=
  match Php.DefaultValue.readFloat (cs.filter (· != '_')) with
  | some (.infinite false) => true
  | _ => false

/-- A floating-point number. -/
def isFloat (cs : List Char) : Bool :=
  let word := unsigned cs
  word == ['i', 'n', 'f'] || word == ['n', 'a', 'n'] || (isDecimal word && !overflows cs)

/-- A number of exactly so many decimal digits. -/
def fixed? (count : Nat) (cs : List Char) : Option Nat :=
  if cs.length = count then Text.Hex.number? 10 cs else none

/-- Numbers of two digits each below a bound, with colons between them. -/
def isClock (bounds : List Nat) (cs : List Char) : Bool :=
  let parts := Text.Pieces.splitOn ':' cs
  parts.length == bounds.length &&
    (parts.zip bounds).all fun (part, bound) => (fixed? 2 part).any (· < bound)

/-- A time of day with seconds, which may have a fraction. -/
def isTime (cs : List Char) : Bool :=
  match Text.Pieces.cutAt '.' cs with
  | none => isClock [24, 60, 61] cs
  | some (before, after) =>
    isClock [24, 60, 61] before && !after.isEmpty && after.all Char.isDigit

/-- The number of days of a month. -/
def daysOf (year month : Nat) : Nat :=
  if month = 2 then
    if (year % 4 = 0 ∧ year % 100 ≠ 0) ∨ year % 400 = 0 then 29 else 28
  else if month ∈ [4, 6, 9, 11] then 30
  else 31

/-- A day of the calendar. -/
def isDate (cs : List Char) : Bool :=
  match Text.Pieces.splitOn '-' cs with
  | [y, m, d] =>
    match fixed? 4 y, fixed? 2 m, fixed? 2 d with
    | some year, some month, some day =>
      1 ≤ month && month ≤ 12 && 1 ≤ day && day ≤ daysOf year month
    | _, _, _ => false
  | _ => false

/-- A time of day with an offset from universal time, or without one. -/
def isOffsetTime (cs : List Char) : Bool :=
  match cs.reverse with
  | 'Z' :: rest | 'z' :: rest => isTime rest.reverse
  | reversed =>
    let offset := (reversed.take 5).reverse
    let before := (reversed.drop 5).reverse
    isTime cs ||
      ((before.getLast? == some '+' || before.getLast? == some '-') && isTime before.dropLast &&
        isClock [24, 60] offset)

/-- A character between a date and a time. -/
def partsMoment (c : Char) : Bool := c == 'T' || c == 't' || c == ' '

/-- A date, a time, or both. -/
def isMoment (cs : List Char) : Bool :=
  isDate cs || isTime cs ||
    (isDate (cs.take 10) && (cs.drop 10).head?.any partsMoment && isOffsetTime (cs.drop 11))

end BusReference.Toml.Number
