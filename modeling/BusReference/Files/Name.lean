import BusReference.Text.Pieces
import BusReference.Text.Utf8

/-!
# Names of files

A file system names what stands in a directory by bytes. Most names are texts in UTF-8, and these
are known by their text.
-/

namespace BusReference.Files

/-- The name of a file or directory: a text, or bytes that are no text. -/
inductive Name where
  | text (s : String)
  | raw (bytes : List UInt8) (noText : ¬ bytes.toByteArray.IsValidUTF8)
  deriving DecidableEq, Repr

instance : Coe String Name := ⟨.text⟩

namespace Name

/-- The bytes of a name. -/
def bytes : Name → List UInt8
  | text s => Text.bytes s
  | raw bytes _ => bytes

/-- The name as a text, if it is one. -/
def text? : Name → Option String
  | text s => some s
  | raw _ _ => none

/-- The text that is shown for a name. -/
def shown : Name → String
  | text s => s
  | raw bytes _ => Text.Utf8.shown bytes

/-- Names come in the order of their bytes. -/
instance : LT Name := ⟨fun a b => a.bytes < b.bytes⟩

instance : LE Name := ⟨fun a b => a.bytes ≤ b.bytes⟩

instance (a b : Name) : Decidable (a < b) := inferInstanceAs (Decidable (a.bytes < b.bytes))

instance (a b : Name) : Decidable (a ≤ b) := inferInstanceAs (Decidable (a.bytes ≤ b.bytes))

/-- The bytes after the last dot of a name, unless nothing stands before the dot. -/
def extension? (name : Name) : Option (List UInt8) :=
  match Text.Pieces.cutAt 0x2E name.bytes.reverse with
  | some (_, []) | none => none
  | some (reversed, _ :: _) => some reversed.reverse

end Name

end BusReference.Files
