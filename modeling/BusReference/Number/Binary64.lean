/-!
# Binary floating-point numbers

The numbers of the 64-bit binary format as exact integers: a significand below `2 ^ 53` and a
power of two. A decimal is read as the nearest such number, a tie going to the even significand.
-/

namespace BusReference.Number

/-- A number of the 64-bit binary format that is not a NaN. -/
inductive Binary64 where
  /-- The number `significand * 2 ^ exponent` with its sign. -/
  | finite (negative : Bool) (significand : Nat) (exponent : Int)
  | infinite (negative : Bool)
  deriving DecidableEq, Repr

/-- A positive rational number. -/
structure Ratio where
  numerator : Nat
  denominator : Nat

namespace Ratio

/-- The rational times a power of two. -/
def scale (r : Ratio) (base : Nat) (power : Int) : Ratio :=
  if 0 ≤ power then ⟨r.numerator * Nat.pow base power.toNat, r.denominator⟩
  else ⟨r.numerator, r.denominator * Nat.pow base (-power).toNat⟩

/-- The nearest integer; of two equally near ones the even one. -/
def round (r : Ratio) : Nat :=
  let quotient := r.numerator / r.denominator
  let twice := 2 * (r.numerator % r.denominator)
  if twice > r.denominator || (twice == r.denominator && quotient % 2 == 1) then quotient + 1
  else quotient

/-- The exponent of the greatest power of two that is at most the rational. -/
def log2 (r : Ratio) : Int :=
  let guess : Int := r.numerator.log2 - r.denominator.log2
  let scaled := r.scale 2 (-guess)
  if scaled.denominator ≤ scaled.numerator then guess else guess - 1

end Ratio

namespace Binary64

/-- The least exponent of the format. -/
def minExponent : Int := -1074

/-- The greatest exponent of the format. -/
def maxExponent : Int := 971

/-- The least significand of a number whose exponent is not the least one: `2 ^ 52`. Significands
are below its double. -/
def leastNormal : Nat := 0x10000000000000

/-- Zero with a sign. -/
def zero (negative : Bool) : Binary64 := .finite negative 0 minExponent

/-- The nearest number of the format to a positive rational. -/
def ofRatio (negative : Bool) (r : Ratio) : Binary64 :=
  let exponent := max (r.log2 - 52) minExponent
  let significand := (r.scale 2 (-exponent)).round
  let (significand, exponent) :=
    if significand = 2 * leastNormal then (leastNormal, exponent + 1) else (significand, exponent)
  if exponent > maxExponent then .infinite negative else .finite negative significand exponent

/-- The nearest number of the format to `digits * 10 ^ exponent`. Exponents far outside the range
of the format are settled by the number of digits alone. -/
def ofDecimal (negative : Bool) (digits : Nat) (exponent : Int) : Binary64 :=
  if digits = 0 then zero negative
  else
    let size : Int := (Nat.toDigits 10 digits).length + exponent
    if size > 400 then .infinite negative
    else if size < -400 then zero negative
    else ofRatio negative (Ratio.scale ⟨digits, 1⟩ 10 exponent)

end Binary64

end BusReference.Number
