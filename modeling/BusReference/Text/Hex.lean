/-!
# Hexadecimal digits

Numbers and code points that are written with hexadecimal digits.
-/

namespace BusReference.Text.Hex

/-- The value of a hexadecimal digit. -/
def digit? (c : Char) : Option Nat :=
  if '0' ≤ c ∧ c ≤ '9' then some (c.toNat - '0'.toNat)
  else if 'a' ≤ c ∧ c ≤ 'f' then some (c.toNat - 'a'.toNat + 10)
  else if 'A' ≤ c ∧ c ≤ 'F' then some (c.toNat - 'A'.toNat + 10)
  else none

/-- The number that the digits, at least one, spell in a base of at most sixteen. -/
def number? (base : Nat) (digits : List Char) : Option Nat :=
  if digits.isEmpty then none
  else
    match digits.mapM digit? with
    | none => none
    | some ds =>
      if ds.all (· < base) then some (ds.foldl (fun n d => base * n + d) 0) else none

/-- The character of a code point. Surrogates are no characters. -/
def charOf? (n : Nat) : Option Char :=
  if h : n.isValidChar then some (Char.ofNatAux n h) else none

/-- The character whose code point the hexadecimal digits, at least one, spell. -/
def char? (digits : List Char) : Option Char :=
  (number? 16 digits).bind charOf?

end BusReference.Text.Hex
