import Mathlib.Logic.Function.Basic
import BusReference.Proofs.Text.ByteOrder

/-!
# Texts among bytes

The bytes of a text are shown as that text: a replacement character only ever
stands for bytes that are no text.  The bytes of a character open it, go on with
it and end it, one after another.
-/

namespace BusReference.Text.Utf8

/-! ## One byte after another -/

theorem toNat_ofNat_of_lt {n : Nat} (small : n < 256) :
    (UInt8.ofNat n).toNat = n := by
  rw [UInt8.toNat_ofNat']
  exact Nat.mod_eq_of_lt small

theorem start?_two {n : Nat} (needed : 2 ≤ n) (small : n < 32) :
    start? (n + 0xC0) = some { bits := n, missing := 1 } := by
  rw [start?, if_neg (by omega), if_neg (by omega), if_pos (by omega),
    Nat.add_sub_cancel]

theorem start?_three {n : Nat} (small : n < 16) :
    start? (n + 0xE0) = some
      { bits := n
        missing := 2
        least := if n = 0 then 0xA0 else 0x80
        greatest := if n = 13 then 0x9F else 0xBF } := by
  rw [start?, if_neg (by omega), if_neg (by omega), if_neg (by omega),
    if_pos (by omega), Nat.add_sub_cancel]
  simp

theorem start?_four {n : Nat} (small : n < 5) :
    start? (n + 0xF0) = some
      { bits := n
        missing := 3
        least := if n = 0 then 0x90 else 0x80
        greatest := if n = 4 then 0x8F else 0xBF } := by
  rw [start?, if_neg (by omega), if_neg (by omega), if_neg (by omega),
    if_neg (by omega), if_pos (by omega), Nat.add_sub_cancel]
  simp

section Bytes

variable {character : Started} {n : Nat} (bytes : List UInt8)

theorem shownFrom_whole (small : n < 0x80) :
    shownFrom none (UInt8.ofNat n :: bytes) =
      Char.ofNat n :: shownFrom none bytes := by
  have byte := toNat_ofNat_of_lt (n := n) (by omega)
  simp [shownFrom, next, first, start?, byte, small, settle]

theorem shownFrom_starts
    (small : n < 256) (starts : start? n = some character)
    (more : character.missing ≠ 0) :
    shownFrom none (UInt8.ofNat n :: bytes) =
      shownFrom (some character) bytes := by
  have byte := toNat_ofNat_of_lt small
  simp [shownFrom, next, first, byte, starts, settle, more]

theorem shownFrom_goesOn
    (fits : character.least ≤ n % 64 + 128 ∧
      n % 64 + 128 ≤ character.greatest) :
    shownFrom (some character) (UInt8.ofNat (n % 64 + 128) :: bytes) =
      if character.missing ≤ 1 then
        Char.ofNat (character.bits * 64 + n % 64) :: shownFrom none bytes
      else
        shownFrom
          (some
            { bits := character.bits * 64 + n % 64
              missing := character.missing - 1 })
          bytes := by
  have byte := toNat_ofNat_of_lt (n := n % 64 + 128) (by omega)
  have digit : (n % 64 + 128) % 64 = n % 64 := by omega
  rw [shownFrom, next, byte, if_pos fits, settle, digit]
  by_cases last : character.missing ≤ 1
  · rw [if_pos last, if_pos (by dsimp only; omega)]
    rfl
  · rw [if_neg last, if_neg (by dsimp only; omega)]
    rfl

end Bytes

/-! ## Characters and texts -/

/-- The bytes of a character are shown as that character. -/
theorem shownFrom_utf8EncodeChar (c : Char) (bytes : List UInt8) :
    shownFrom none (String.utf8EncodeChar c ++ bytes) =
      c :: shownFrom none bytes := by
  have valid : c.val.toNat < 0xD800 ∨
      0xDFFF < c.val.toNat ∧ c.val.toNat < 0x110000 := c.valid
  have whole : ∀ n, n = c.val.toNat → Char.ofNat n = c := by
    rintro n rfl
    exact Char.ofNat_toNat c
  rw [String.utf8EncodeChar]
  split
  · rw [List.singleton_append, shownFrom_whole _ (by omega), whole _ rfl]
  split
  · rw [List.cons_append, List.singleton_append,
      shownFrom_starts _ (by omega)
        (start?_two (by omega) (by omega)) (by simp),
      shownFrom_goesOn _ (by dsimp only; omega),
      if_pos (by simp), whole _ (by dsimp only; omega)]
  split
  · rw [List.cons_append, List.cons_append, List.singleton_append,
      shownFrom_starts _ (by omega) (start?_three (by omega)) (by simp),
      shownFrom_goesOn _ (by dsimp only; split <;> split <;> omega),
      if_neg (by simp), shownFrom_goesOn _ (by dsimp only; omega),
      if_pos (by simp), whole _ (by dsimp only; omega)]
  · rw [List.cons_append, List.cons_append, List.cons_append,
      List.singleton_append,
      shownFrom_starts _ (by omega) (start?_four (by omega)) (by simp),
      shownFrom_goesOn _ (by dsimp only; split <;> split <;> omega),
      if_neg (by simp), shownFrom_goesOn _ (by dsimp only; omega),
      if_neg (by simp), shownFrom_goesOn _ (by dsimp only; omega),
      if_pos (by simp), whole _ (by dsimp only; omega)]

/-- A text is shown as it is. -/
theorem shown_bytes (s : String) : shown (bytes s) = s := by
  have chars : ∀ cs : List Char,
      shownFrom none (cs.flatMap String.utf8EncodeChar) = cs := by
    intro cs
    induction cs with
    | nil => rfl
    | cons c cs ih =>
        rw [List.flatMap_cons, shownFrom_utf8EncodeChar, ih]
  rw [shown, bytes_eq, chars, String.ofList_toList]

/-- Bytes that go on with nothing, and those that nothing goes on with. -/
example : shown [0x61, 0x80, 0xE2, 0x82, 0x62] = "a\uFFFD\uFFFDb" := by
  decide

/-- Texts are known by their bytes. -/
theorem bytes_injective : Function.Injective bytes :=
  Function.LeftInverse.injective shown_bytes

end BusReference.Text.Utf8
