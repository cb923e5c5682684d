import BusReference.Config.Basic
import BusReference.Toml.Reading

/-!
# Reading the configuration

The configuration as the fields of a TOML file. Fields that are missing have default values, and
unknown ones do not matter. A group of settings may also be written as an array of all its values in
their order.
-/

namespace BusReference.Config

open BusReference.Files
open BusReference.Toml (Fields Value)

/-- A text. -/
def text? : Value → Option String
  | .string s => some s
  | _ => none

/-- The texts of an array. -/
def texts? : Value → Option (List String)
  | .array items => items.mapM text?
  | _ => none

/-- A value without parts: a table or an array without entries. -/
def isHollow : Value → Bool
  | .table _ fields => fields.isEmpty
  | .array items => items.isEmpty
  | _ => false

/-- A layout: its name as a text, or as the only key of a table, over a value without parts. -/
def layout? : Value → Option Layout
  | .string s => Layout.ofName? s
  | .table _ [(name, v)] => if isHollow v then Layout.ofName? name else none
  | _ => none

/-- The field of the given name, which is read as told if it is there. -/
def field {α : Type} (read : Value → Option α) (name : String) (default : α) (fields : Fields) :
    Option α :=
  match fields.lookup name with
  | none => some default
  | some v => read v

/-- The field of the given name, if it is there. -/
def optional {α : Type} (read : Value → Option α) (name : String) (fields : Fields) :
    Option (Option α) :=
  field (fun v => (read v).map some) name none fields

/-- Settings of the documentation project. A date stands for a group without fields. -/
def docs? : Value → Option DocsSettings
  | .table _ fields => do
    let path ← optional text? "path" fields
    let cqrsFolder ← field text? "cqrs_folder" ({} : DocsSettings).cqrsFolder fields
    let layout ← field layout? "layout" ({} : DocsSettings).layout fields
    let version ← optional text? "version" fields
    return { path, cqrsFolder, layout, version }
  | .array (path :: cqrsFolder :: layout :: version :: _) => do
    return {
      path := some (← text? path)
      cqrsFolder := ← text? cqrsFolder
      layout := ← layout? layout
      version := some (← text? version) }
  | .moment => some {}
  | _ => none

/-- Settings of the sources. A date stands for a group without fields. -/
def sources? : Value → Option SourceSettings
  | .table _ fields => do
    let roots ← field texts? "roots" [] fields
    let domainPattern ← field text? "domain_pattern" ({} : SourceSettings).domainPattern fields
    let manifest ← optional text? "manifest" fields
    return { roots, domainPattern, manifest }
  | .array (roots :: domainPattern :: manifest :: _) => do
    return {
      roots := ← texts? roots
      domainPattern := ← text? domainPattern
      manifest := some (← text? manifest) }
  | .moment => some {}
  | _ => none

/-- The configuration that the fields of a file describe. -/
def ofFields? (fields : Fields) : Option Config := do
  let docs ← field docs? "docs" {} fields
  let sources ← field sources? "sources" {} fields
  return { docs, sources }

/-- The configuration that a text describes. -/
def parse? (text : String) : Option Config := (Toml.parse? text).bind ofFields?

/-- The configuration of a file. Without the file everything has its default value. -/
def load (fs : FileSystem) (path : String) : Except Error Config :=
  if fs.pathExists path then
    match fs.readText path with
    | .error reason => .error (.configNotRead reason)
    | .ok text =>
      match parse? text with
      | some config => .ok config
      | none => .error (.malformedConfig path)
  else .ok {}

end BusReference.Config
