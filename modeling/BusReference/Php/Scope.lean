import BusReference.Php.Declaration
import BusReference.Php.Token

/-!
# Name resolution

The namespace and the imports under which a name is written decide which qualified name it stands
for. Imports are kept newest first, so that the latest one of an alias is found.
-/

namespace BusReference.Php

/-- What is in force at a place of a source file: its namespace, empty for the global one, and the
imported names by their aliases, newest first. -/
structure Scope where
  namespaceName : String := ""
  imports : List (String × String) := []
  deriving DecidableEq, Repr

namespace Scope

/-- The types of the language itself; they are written without a namespace and in any case. -/
def builtinTypes : List String :=
  ["array", "bool", "callable", "false", "float", "int", "iterable", "mixed", "never", "null",
    "object", "parent", "resource", "self", "static", "string", "true", "void"]

/-- A name in the current namespace. -/
def qualify (scope : Scope) (name : String) : String :=
  if scope.namespaceName = "" then name else scope.namespaceName ++ "\\" ++ name

/-- The qualified name of a reference to a class: an absolute name without its backslash; else what
the first segment is imported as with the remaining ones; else the name in the current
namespace. -/
def resolve (scope : Scope) (name : String) : String :=
  match name.toList with
  | '\\' :: absolute => String.ofList absolute
  | cs =>
    let first := cs.takeWhile (· != '\\')
    match scope.imports.lookup (String.ofList first) with
    | some imported => imported ++ String.ofList (cs.drop first.length)
    | none => scope.qualify name

/-- The qualified name of a reference to a type; types of the language are kept, in small letters.
-/
def resolveType (scope : Scope) (name : String) : String :=
  if builtinTypes.contains name.toLower then name.toLower else scope.resolve name

/-- Makes a qualified name known under an alias. -/
def addImport (scope : Scope) (short full : String) : Scope :=
  { scope with imports := (short, full) :: scope.imports }

/-- The scope after the start of a namespace, which forgets all imports. -/
def enter (name : String) : Scope := { namespaceName := plainName name }

/-- Reads the alias that may follow an imported name; it defaults to the last segment. -/
def readAlias (full : String) : List Token → String × List Token
  | [] => (shortName full, [])
  | t :: ts =>
    if t.isKeyword "as" then
      match ts with
      | .name short :: rest => (short, rest)
      | _ :: rest => (shortName full, rest)
      | [] => (shortName full, [])
    else (shortName full, t :: ts)

theorem readAlias_length_le (full : String) (ts : List Token) :
    (readAlias full ts).2.length ≤ ts.length := by
  unfold readAlias
  split
  · simp
  · split
    · split <;> simp <;> omega
    · simp

/-- Reads the members of a group of imports, whose names all start with `base`. -/
def readGroup (base : String) (scope : Scope) : List Token → Scope × List Token
  | [] => (scope, [])
  | .punct '}' :: ts => (scope, ts)
  | .name member :: ts =>
    let full := base ++ member
    let read := readAlias full ts
    readGroup base (scope.addImport read.1 full) read.2
  | _ :: ts => readGroup base scope ts
  termination_by ts => ts.length
  decreasing_by
    · have := readAlias_length_le (base ++ member) ts; simp only [List.length_cons]; omega
    · simp

theorem readGroup_length_le (base : String) (scope : Scope) (ts : List Token) :
    (readGroup base scope ts).2.length ≤ ts.length := by
  fun_induction readGroup base scope ts with
  | case1 => simp
  | case2 => simp
  | case3 scope member ts full read ih =>
    have := readAlias_length_le full ts
    simp only [List.length_cons]
    exact Nat.le_succ_of_le (Nat.le_trans ih this)
  | case4 scope t ts _ _ ih => exact Nat.le_succ_of_le ih

/-- Reads one imported name or one group, the name itself being consumed already. -/
def readImport (scope : Scope) (name : String) (ts : List Token) : Scope × List Token :=
  match ts with
  | .punct '{' :: rest =>
    if name.toList.getLast? = some '\\' then readGroup name scope rest
    else
      let read := readAlias name ts
      (scope.addImport read.1 name, read.2)
  | _ =>
    let read := readAlias name ts
    (scope.addImport read.1 name, read.2)

theorem readImport_length_le (scope : Scope) (name : String) (ts : List Token) :
    (readImport scope name ts).2.length ≤ ts.length := by
  unfold readImport
  split
  · split
    · exact Nat.le_succ_of_le (readGroup_length_le _ _ _)
    · exact readAlias_length_le _ _
  · exact readAlias_length_le _ _

/-- Reads the names of a `use` declaration, which commas separate. Whatever else follows a name is
consumed as the end of the declaration. -/
def readImports (scope : Scope) : List Token → Scope × List Token
  | .name name :: ts =>
    let read := readImport scope (plainName name) ts
    match h : read.2 with
    | .punct ',' :: rest =>
      have : rest.length < ts.length := by
        have shorter : read.2.length ≤ ts.length := readImport_length_le _ _ _
        rwa [h, List.length_cons] at shorter
      readImports read.1 rest
    | _ :: rest => (read.1, rest)
    | [] => (read.1, [])
  | _ :: ts => (scope, ts)
  | [] => (scope, [])
  termination_by ts => ts.length

theorem readImports_length_le (scope : Scope) (ts : List Token) :
    (readImports scope ts).2.length ≤ ts.length := by
  fun_induction readImports scope ts with
  | case1 scope name ts read rest h ih =>
    have shorter : read.2.length ≤ ts.length := readImport_length_le _ _ _
    rw [h, List.length_cons] at shorter
    simp only [List.length_cons]
    omega
  | case2 scope name ts read _ rest _ h =>
    have shorter : read.2.length ≤ ts.length := readImport_length_le _ _ _
    rw [h, List.length_cons] at shorter
    simp only [List.length_cons]
    omega
  | case3 => simp
  | case4 => simp
  | case5 => simp

/-- The tokens after the first occurrence of a punctuation mark. -/
def dropThrough (c : Char) : List Token → List Token
  | [] => []
  | t :: ts => if t = .punct c then ts else dropThrough c ts

theorem dropThrough_length_le (c : Char) (ts : List Token) :
    (dropThrough c ts).length ≤ ts.length := by
  induction ts with
  | nil => simp [dropThrough]
  | cons t ts ih =>
    unfold dropThrough
    split
    · simp
    · exact Nat.le_succ_of_le ih

/-- Reads what follows the keyword of a `use` declaration. Imports of functions and constants name
no types and are skipped. -/
def readUse (scope : Scope) (ts : List Token) : Scope × List Token :=
  if ts.head?.any (fun t => t.isKeyword "function" || t.isKeyword "const") then
    (scope, dropThrough ';' ts)
  else readImports scope ts

theorem readUse_length_le (scope : Scope) (ts : List Token) :
    (readUse scope ts).2.length ≤ ts.length := by
  unfold readUse
  split
  · exact dropThrough_length_le _ _
  · exact readImports_length_le _ _

end Scope

end BusReference.Php
