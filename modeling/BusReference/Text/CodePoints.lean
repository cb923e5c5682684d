/-!
# Tables of code points

Sets of code points as lists of arithmetic progressions, and mappings of code points as
progressions with a constant distance. Letters of both cases alternate over long stretches of the
code space, so a step of two keeps such tables short.
-/

namespace BusReference.Text

/-- The code points `first`, `first + step`, …, up to and including `last`. -/
structure Progression where
  first : Nat
  last : Nat
  step : Nat

/-- Whether a character is a member of the progression. -/
def Progression.has (p : Progression) (c : Char) : Bool :=
  p.first ≤ c.toNat && c.toNat ≤ p.last && (c.toNat - p.first) % p.step == 0

/-- A set of code points. -/
abbrev CodePoints := List Progression

/-- Whether a character is in the set. -/
def CodePoints.has (points : CodePoints) (c : Char) : Bool :=
  points.any (·.has c)

/-- Code points that are all mapped by the same distance. -/
structure Shift where
  points : Progression
  distance : Int

/-- The character at the given distance above `c`. -/
def Shift.move (s : Shift) (c : Char) : Char :=
  Char.ofNat (c.toNat + s.distance).toNat

/-- The character at the given distance below `c`. -/
def Shift.moveBack (s : Shift) (c : Char) : Char :=
  Char.ofNat (c.toNat - s.distance).toNat

/-- The image of a character under a list of shifts; a character in none of them is its own. -/
def Shift.apply (shifts : List Shift) (c : Char) : Char :=
  match shifts.find? (·.points.has c) with
  | some s => s.move c
  | none => c

end BusReference.Text
