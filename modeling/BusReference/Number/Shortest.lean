import BusReference.Number.Binary64

/-!
# Shortest decimals

The decimal with the fewest digits that is nearer to a number of the 64-bit binary format than to
any other one, and its text in positional notation.
-/

namespace BusReference.Number.Shortest

/-- The rational numbers that are read as one number of the binary format: those between `low` and
`high`, the ends included if `closed`. All three values are numerators over one denominator. -/
structure Interval where
  low : Nat
  value : Nat
  high : Nat
  denominator : Nat
  closed : Bool

/-- The interval of a positive number. Below a power of two the neighbour is only half as far. -/
def interval (significand : Nat) (exponent : Int) : Interval :=
  let below := if significand = Binary64.leastNormal ∧ exponent > Binary64.minExponent then 1 else 2
  let unit := Ratio.scale ⟨1, 1⟩ 2 (exponent - 2)
  { low := (4 * significand - below) * unit.numerator
    value := 4 * significand * unit.numerator
    high := (4 * significand + 2) * unit.numerator
    denominator := unit.denominator
    closed := significand % 2 == 0 }

/-- Whether the rational lies in the interval. -/
def Interval.has (i : Interval) (r : Ratio) : Bool :=
  let point := r.numerator * i.denominator
  let low := i.low * r.denominator
  let high := i.high * r.denominator
  if i.closed then low ≤ point && point ≤ high else low < point && point < high

/-- The exponent of the greatest power of ten that is at most the rational. -/
def log10 (r : Ratio) : Int :=
  if r.denominator ≤ r.numerator then
    (Nat.toDigits 10 (r.numerator / r.denominator)).length - 1
  else
    let count := (Nat.toDigits 10 (r.denominator / r.numerator)).length
    if r.denominator ≤ r.numerator * Nat.pow 10 (count - 1) then 1 - count else -count

/-- The multiple of `10 ^ exponent` in the interval that is nearest to its value, if there is one;
of two equally near ones the greater. -/
def nearestOnGrid (i : Interval) (exponent : Int) : Option Nat :=
  let scaled := Ratio.scale ⟨i.value, i.denominator⟩ 10 (-exponent)
  let below := scaled.numerator / scaled.denominator
  let rest := scaled.numerator % scaled.denominator
  let inside (n : Nat) := i.has (Ratio.scale ⟨n, 1⟩ 10 exponent)
  let upward := if 2 * rest < scaled.denominator then [below, below + 1] else [below + 1, below]
  upward.find? inside

/-- The shortest decimal `digits * 10 ^ exponent` of a positive number of the format. Seventeen
digits always suffice. -/
def shortest (significand : Nat) (exponent : Int) : Nat × Int :=
  let i := interval significand exponent
  let top := log10 ⟨i.value, i.denominator⟩
  let grids := (List.range 17).map fun (count : Nat) => top - (count : Int)
  match grids.findSome? fun e => (nearestOnGrid i e).map (·, e) with
  | some decimal => decimal
  | none => (significand, 0)

/-- Drops the zeros at the end of a list of digits. -/
def dropTrailingZeros (digits : List Char) : List Char :=
  (digits.reverse.dropWhile (· == '0')).reverse

/-- The decimal `digits * 10 ^ exponent` in positional notation. -/
def positional (digits : Nat) (exponent : Int) : String :=
  let ds := Nat.toDigits 10 digits
  if 0 ≤ exponent then String.ofList (ds ++ List.replicate exponent.toNat '0')
  else
    let places := (-exponent).toNat
    let padded := List.replicate (places + 1 - ds.length) '0' ++ ds
    let whole := padded.take (padded.length - places)
    let fraction := dropTrailingZeros (padded.drop (padded.length - places))
    if fraction.isEmpty then String.ofList whole else String.ofList (whole ++ '.' :: fraction)

/-- The sign of a number as it stands before its digits. -/
def sign (negative : Bool) : String := if negative then "-" else ""

/-- The shortest text of a number that is read back as it, without an exponent. -/
def text : Binary64 → String
  | .infinite negative => sign negative ++ "inf"
  | .finite negative 0 _ => sign negative ++ "0"
  | .finite negative significand exponent =>
    let (digits, power) := shortest significand exponent
    sign negative ++ positional digits power

/-- The absolute value of a number, if that is an integer. -/
def integer? : Binary64 → Option Nat
  | .infinite _ => none
  | .finite _ significand exponent =>
    let scaled := Ratio.scale ⟨significand, 1⟩ 2 exponent
    if scaled.numerator % scaled.denominator = 0 then
      some (scaled.numerator / scaled.denominator)
    else none

end BusReference.Number.Shortest
