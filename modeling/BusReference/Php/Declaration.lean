import BusReference.Files.Path
import BusReference.Php.Literal

/-!
# Declared types

What a source file declares about a class, an interface, a trait or an enum: its names and those it
refers to, its doc comments, and its methods with their parameters.
-/

namespace BusReference.Php

/-- The part of a qualified name after its last backslash. -/
def shortName (name : String) : String :=
  String.ofList (Text.Pieces.afterLast '\\' name.toList)

/-- The name without leading backslashes. -/
def plainName (name : String) : String :=
  Text.Pieces.dropLeading '\\' name

/-- The kind of a declared type. -/
inductive TypeKind where
  | classType
  | interfaceType
  | traitType
  | enumType
  deriving DecidableEq, Repr

namespace TypeKind

/-- The keyword that declares a type of this kind. -/
def keyword : TypeKind → String
  | classType => "class"
  | interfaceType => "interface"
  | traitType => "trait"
  | enumType => "enum"

/-- The kind that a keyword in small letters declares. -/
def ofKeyword? : String → Option TypeKind
  | "class" => some classType
  | "interface" => some interfaceType
  | "trait" => some traitType
  | "enum" => some enumType
  | _ => none

end TypeKind

/-- A parameter of a method. -/
structure Parameter where
  /-- The name without its dollar sign. -/
  name : String
  /-- The declared type without its `null` members. -/
  declaredType : Option String := none
  /-- Whether the declaration accepts null: by its type or by a default of null. -/
  nullable : Bool := false
  variadic : Bool := false
  defaultValue : Option DefaultValue := none
  deriving DecidableEq, Repr

namespace Parameter

/-- Gives the parameter a default value. A default of null makes it accept null. -/
def withDefault (p : Parameter) (value : DefaultValue) : Parameter :=
  { p with defaultValue := some value, nullable := p.nullable || value == .null }

/-- A call may leave the parameter out. -/
def isOptional (p : Parameter) : Bool := p.defaultValue.isSome || p.variadic

/-- The parameter takes null; one without a declared type takes everything. -/
def allowsNull (p : Parameter) : Bool := p.declaredType.isNone || p.nullable

end Parameter

/-- A method declared in the body of a type. -/
structure Method where
  name : String
  doc : Option String := none
  parameters : List Parameter := []
  /-- The declared return type with qualified names and without `null` members. -/
  returnType : Option String := none
  deriving DecidableEq, Repr

/-- A declared type. -/
structure Declaration where
  /-- The qualified name without a leading backslash. -/
  name : String
  kind : TypeKind
  /-- The doc comment before the declaration. -/
  doc : Option String := none
  /-- The qualified names of the attributes. -/
  attributes : List String := []
  /-- The class that a class extends. -/
  parent : Option String := none
  /-- The interfaces that the type implements or, for an interface, extends. -/
  interfaces : List String := []
  /-- The traits that the body uses. -/
  traits : List String := []
  methods : List Method := []
  /-- The file of the declaration. -/
  path : Option Files.FilePath := none
  /-- The whole text of the file of the declaration. -/
  source : Option String := none
  deriving DecidableEq, Repr

namespace Declaration

/-- An empty declaration of the given name, which loses its leading backslashes. -/
def named (name : String) (kind : TypeKind) : Declaration :=
  { name := plainName name, kind }

/-- The first method of the given name in the body itself. Method names do not distinguish the
case of ASCII letters. -/
def method? (d : Declaration) (name : String) : Option Method :=
  d.methods.find? fun m => Text.Pieces.sameLetters m.name name

/-- Whether the type has an attribute of the given short name. -/
def hasAttribute (d : Declaration) (short : String) : Bool :=
  d.attributes.any fun a => shortName a == short

/-- The place of a declaration in a message: its file, or that it comes from no file. -/
def location (d : Declaration) : String := (d.path.map (·.shown)).getD "<memory>"

end Declaration

end BusReference.Php
