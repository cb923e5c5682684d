import BusReference.Php.SourceFile

/-!
# Index of declared types

All types of a project by their qualified names, in the order of their declarations. Of several
declarations of one name the first one counts.
-/

namespace BusReference.Php

/-- Declared types in the order of their registration. -/
structure Index where
  types : List Declaration := []
  deriving DecidableEq, Repr

/-- A declaration that was not registered, since another one has its name. -/
structure Conflict where
  refused : Declaration
  kept : Declaration
  deriving DecidableEq, Repr

namespace Conflict

/-- The warning about a declaration that was not registered. -/
def message (c : Conflict) : String :=
  "Duplicate declaration of " ++ c.refused.name ++ " in " ++ c.refused.location ++
    ", keeping the one from " ++ c.kept.location

end Conflict

namespace Index

/-- The first declaration of exactly the given name. -/
def lookup (types : List Declaration) (name : String) : Option Declaration :=
  types.find? (·.name == name)

/-- The declaration of a name, which may have leading backslashes. -/
def find? (index : Index) (name : String) : Option Declaration :=
  lookup index.types (plainName name)

/-- Registers a declaration unless its name is taken. -/
def register (index : Index) (d : Declaration) : Index :=
  match lookup index.types d.name with
  | some _ => index
  | none => ⟨index.types ++ [d]⟩

/-- Registers declarations one after another. -/
def registerAll (index : Index) (ds : List Declaration) : Index :=
  ds.foldl register index

/-- The declarations that registering the given ones one after another refuses, in their order. -/
def conflicts (index : Index) : List Declaration → List Conflict
  | [] => []
  | d :: ds =>
    match lookup index.types d.name with
    | some kept => ⟨d, kept⟩ :: conflicts index ds
    | none => conflicts (index.register d) ds

/-- Registers the declarations of a source text. -/
def addSource (index : Index) (source : String) (path : Option Files.FilePath) : Except Fault Index :=
  match SourceFile.read source path with
  | .error fault => .error fault
  | .ok ds => .ok (index.registerAll ds)

end Index

end BusReference.Php
