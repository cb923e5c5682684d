import BusReference.Files.Name
import BusReference.Proofs.Text.Utf8

/-!
# Names and their bytes

A name is known by its bytes, and any bytes are a name: a text where they are
one in UTF-8.  Names come in the order of their bytes, which for texts is the
order of the texts, and a name is shown by what is shown for its bytes.
-/

namespace BusReference.Files.Name

open BusReference.Text (Utf8.bytes_injective Utf8.shown Utf8.shown_bytes
  lt_iff_bytes_lt)

variable {a b : Name}

theorem lt_def : a < b ↔ a.bytes < b.bytes := Iff.rfl

theorem le_def : a ≤ b ↔ a.bytes ≤ b.bytes := Iff.rfl

@[simp]
theorem text_le_text {s t : String} : text s ≤ text t ↔ s ≤ t := by
  rw [le_def, ← List.not_lt, ← String.not_lt, lt_iff_bytes_lt]
  rfl

theorem toByteArray_bytes (s : String) :
    (Text.bytes s).toByteArray = s.toUTF8 :=
  ByteArray.ext (by rw [List.data_toByteArray, Text.bytes, Array.toArray_toList])

/-- The bytes of a name are a text exactly if the name is one. -/
theorem isValidUTF8_iff :
    a.bytes.toByteArray.IsValidUTF8 ↔ ∃ s, a = text s := by
  cases a with
  | text s =>
      have valid : (Text.bytes s).toByteArray.IsValidUTF8 := by
        rw [toByteArray_bytes]
        exact s.isValidUTF8
      exact ⟨fun _ => ⟨s, rfl⟩, fun _ => valid⟩
  | raw bs noText => exact ⟨fun valid => absurd valid noText, nofun⟩

/-- Every sequence of bytes is that of one name. -/
theorem bytes_bijective : Function.Bijective bytes := by
  constructor
  · intro a b same
    have alike : (∃ s, a = text s) ↔ ∃ s, b = text s := by
      rw [← isValidUTF8_iff, ← isValidUTF8_iff, same]
    cases a with
    | text s =>
        obtain ⟨t, rfl⟩ := alike.mp ⟨s, rfl⟩
        exact congrArg text (Utf8.bytes_injective same)
    | raw bs noText =>
        cases b with
        | text t => exact absurd (alike.mpr ⟨t, rfl⟩) nofun
        | raw cs others =>
            cases (show bs = cs from same)
            rfl
  · intro bs
    by_cases valid : bs.toByteArray.IsValidUTF8
    · refine ⟨.text (String.fromUTF8 bs.toByteArray valid), ?_⟩
      exact List.toList_data_toByteArray
    · exact ⟨.raw bs valid, rfl⟩

/-- Lists of names come in the order of the bytes of their parts. -/
theorem map_bytes_lt
    {names others : List Name} (less : names < others) :
    names.map bytes < others.map bytes := by
  induction names generalizing others with
  | nil =>
      cases others with
      | nil => exact absurd less (List.not_lt_nil _)
      | cons other others => exact List.nil_lt_cons _ _
  | cons name names ih =>
      cases others with
      | nil => exact absurd less (List.not_lt_nil _)
      | cons other others =>
          rw [List.map_cons, List.map_cons, List.cons_lt_cons_iff]
          exact (List.cons_lt_cons_iff.mp less).imp lt_def.mp
            fun ⟨same, later⟩ => ⟨congrArg bytes same, ih later⟩

/-- A name is shown by its bytes. -/
theorem shown_eq (name : Name) : name.shown = Utf8.shown name.bytes := by
  cases name with
  | text s => exact (Utf8.shown_bytes s).symm
  | raw bs noText => rfl

end BusReference.Files.Name
