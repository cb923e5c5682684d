import Mathlib.Logic.Basic
import BusReference.Text.Utf8

/-!
# Order of texts by their bytes

Texts are ordered by the code points of their characters.  UTF-8 keeps this
order: texts come in the same order as the sequences of their bytes.
-/

namespace BusReference.Text

theorem bytes_eq (s : String) :
    bytes s = s.toList.flatMap String.utf8EncodeChar := by
  rw [bytes, String.toUTF8, ← String.utf8Encode_toList, List.utf8Encode,
    List.toList_data_toByteArray]

/-- Of two numbers the smaller one has the smaller digit where their digits to
the base of 64 differ first. -/
theorem digits_lt {m n : Nat} (less : m < n) :
    m / 262144 < n / 262144 ∨ m / 262144 = n / 262144 ∧
      (m / 4096 % 64 < n / 4096 % 64 ∨ m / 4096 % 64 = n / 4096 % 64 ∧
        (m / 64 % 64 < n / 64 % 64 ∨ m / 64 % 64 = n / 64 % 64 ∧
          m % 64 < n % 64)) := by
  rcases Nat.lt_or_ge (m / 64) (n / 64) with upper | equal
  · rcases Nat.lt_or_ge (m / 4096) (n / 4096) with highest | same
    · omega
    · omega
  · omega

/-- The bytes of a smaller character come first, whatever follows them. -/
theorem utf8EncodeChar_append_lt
    {c d : Char} (less : c < d) (x y : List UInt8) :
    String.utf8EncodeChar c ++ x < String.utf8EncodeChar d ++ y := by
  have smaller : c.val.toNat < d.val.toNat :=
    UInt32.lt_iff_toNat_lt.mp (Char.lt_def.mp less)
  have bounded : d.val.toNat < 0x110000 := by
    have valid := d.valid
    unfold UInt32.isValidChar Nat.isValidChar at valid
    omega
  have digit := digits_lt smaller
  have low : ∀ n, (n % 64 + 128) % 2 ^ 8 = n % 64 + 128 := by omega
  have high : ∀ n, (n % 8 + 240) % 2 ^ 8 = n % 8 + 240 := by omega
  have top : ∀ n < 0x110000, n / 262144 % 8 = n / 262144 := by omega
  have topOfSmaller := top c.val.toNat (Nat.lt_trans smaller bounded)
  have topOfGreater := top d.val.toNat bounded
  simp only [String.utf8EncodeChar]
  -- one case for each pair of lengths, which the first bytes tell apart
  repeat' split
  all_goals
    simp only [List.cons_append, List.nil_append, List.cons_lt_cons_iff,
      UInt8.lt_iff_toNat_lt, ← UInt8.toNat_inj, UInt8.toNat_ofNat', low, high]
    omega

theorem exists_utf8EncodeChar_eq_cons (c : Char) :
    ∃ b bs, String.utf8EncodeChar c = b :: bs := by
  simp only [String.utf8EncodeChar]
  repeat' split
  all_goals exact ⟨_, _, rfl⟩

theorem flatMap_utf8EncodeChar_lt
    {cs ds : List Char} (less : cs < ds) :
    cs.flatMap String.utf8EncodeChar < ds.flatMap String.utf8EncodeChar := by
  induction cs generalizing ds with
  | nil =>
      cases ds with
      | nil => exact absurd less (List.lt_irrefl _)
      | cons d ds =>
          obtain ⟨b, bs, bytes⟩ := exists_utf8EncodeChar_eq_cons d
          rw [List.flatMap_nil, List.flatMap_cons, bytes]
          exact List.nil_lt_cons _ _
  | cons c cs ih =>
      cases ds with
      | nil => exact absurd less (List.not_lt_nil _)
      | cons d ds =>
          rw [List.flatMap_cons, List.flatMap_cons]
          rcases List.cons_lt_cons_iff.mp less with first | ⟨rfl, later⟩
          · exact utf8EncodeChar_append_lt first _ _
          · exact List.append_left_lt (ih later)

/-- Texts come in the order of their bytes. -/
theorem lt_iff_bytes_lt {s t : String} : s < t ↔ bytes s < bytes t := by
  have keeps : ∀ {s t : String}, s < t → bytes s < bytes t := fun less => by
    rw [bytes_eq, bytes_eq]
    exact flatMap_utf8EncodeChar_lt (String.lt_iff.mp less)
  refine ⟨keeps, fun less => ?_⟩
  rcases Decidable.em (s < t) with done | notLess
  · exact done
  · rcases Decidable.em (t < s) with greater | notGreater
    · exact absurd (keeps greater) (List.lt_asymm less)
    · have same : s = t := String.le_antisymm
        (String.not_lt.mp notGreater) (String.not_lt.mp notLess)
      subst same
      exact absurd less (List.lt_irrefl _)

end BusReference.Text
