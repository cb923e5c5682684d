/-!
# Bytes of texts

The bytes of a text in UTF-8, and the text that is shown for bytes which need not be one: a
replacement character stands for every stretch that starts no character, or starts one and does
not go on with it.
-/

namespace BusReference.Text

/-- The bytes of a text in UTF-8. -/
def bytes (s : String) : List UInt8 := s.toUTF8.data.toList

namespace Utf8

/-- A character of which some bytes were read. -/
structure Started where
  /-- The bits of the character that were read. -/
  bits : Nat
  /-- The number of bytes that are missing. -/
  missing : Nat
  /-- The least byte that goes on with the character. -/
  least : Nat := 0x80
  /-- The greatest byte that goes on with the character. -/
  greatest : Nat := 0xBF

/-- What a byte starts. The bytes that would start a longer form of a character than it needs, a
surrogate, or what lies behind the last character, are ruled out here or by the bounds of the
second byte. -/
def start? (byte : Nat) : Option Started :=
  if byte < 0x80 then some { bits := byte, missing := 0 }
  else if byte < 0xC2 then none
  else if byte < 0xE0 then some { bits := byte - 0xC0, missing := 1 }
  else if byte < 0xF0 then
    some
      { bits := byte - 0xE0
        missing := 2
        least := if byte = 0xE0 then 0xA0 else 0x80
        greatest := if byte = 0xED then 0x9F else 0xBF }
  else if byte < 0xF5 then
    some
      { bits := byte - 0xF0
        missing := 3
        least := if byte = 0xF0 then 0x90 else 0x80
        greatest := if byte = 0xF4 then 0x8F else 0xBF }
  else none

/-- What is shown in place of bytes that are no text. -/
def replacement : Char := Char.ofNat 0xFFFD

/-- The characters that are complete, and what is still open. -/
def settle (character : Started) : List Char × Option Started :=
  if character.missing = 0 then ([Char.ofNat character.bits], none) else ([], some character)

/-- Reads a byte where no character is open. -/
def first (byte : Nat) : List Char × Option Started :=
  match start? byte with
  | none => ([replacement], none)
  | some character => settle character

/-- Reads a byte. If it does not go on with the open character, that one ends in front of it. -/
def next (started : Option Started) (byte : Nat) : List Char × Option Started :=
  match started with
  | none => first byte
  | some character =>
    if character.least ≤ byte ∧ byte ≤ character.greatest then
      settle { bits := character.bits * 64 + byte % 64, missing := character.missing - 1 }
    else (replacement :: (first byte).1, (first byte).2)

/-- The characters that are shown for bytes. -/
def shownFrom (started : Option Started) : List UInt8 → List Char
  | [] => if started.isSome then [replacement] else []
  | byte :: bytes =>
    (next started byte.toNat).1 ++ shownFrom (next started byte.toNat).2 bytes

/-- The text that is shown for bytes. -/
def shown (bytes : List UInt8) : String := String.ofList (shownFrom none bytes)

end Utf8

end BusReference.Text
