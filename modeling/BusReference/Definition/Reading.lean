import BusReference.Definition.Basic
import BusReference.DocComment
import BusReference.Domain
import BusReference.Php.Hierarchy

/-!
# Definitions from declared types

The definition of a command or query is read from its class and from the class of its handler. The
return type is that of the `handle` method as its first interface documents it; a `@return` tag
counts more than the declared type.
-/

namespace BusReference.Definition

open BusReference.Php

/-- The method by which a handler takes a command or a query. -/
def handleMethod : String := "handle"

/-- The name of constructors. -/
def constructorMethod : String := "__construct"

/-- The declaration of a name, which may have leading backslashes. -/
def resolve (index : Index) (name : String) : Except Error Declaration :=
  match index.find? name with
  | some d => .ok d
  | none => .error (.unknownType (plainName name))

/-- The type of a constructor parameter: the declared one or that of its `@param` tag. -/
def parameterType? (constructor : Method) (p : Parameter) : Option String :=
  match p.declaredType with
  | some type => some type
  | none => constructor.doc.bind (DocComment.paramTag? · p.name)

/-- The text without any text `|null` and then without any text `null|`. -/
def withoutNull (s : String) : String :=
  Text.Pieces.replace (Text.Pieces.replace s "|null" "") "null|" ""

/-- The type and the name of a parameter, as far as the type is known. -/
def parameterHead (type : Option String) (p : Parameter) : String :=
  let name := (if p.variadic then "...$" else "$") ++ p.name
  match type with
  | some type => type ++ " " ++ name
  | none => name

/-- A constructor parameter as it is written: its type, its name and its default value. A parameter
that may be left out and accepts null is marked by `?` in place of any null in its type. -/
def parameterText (constructor : Method) (p : Parameter) : String :=
  let type := parameterType? constructor p
  let head := parameterHead type p
  match p.defaultValue with
  | none => head
  | some value =>
    (if p.allowsNull && type.isSome then "?" ++ withoutNull head else head) ++ " = " ++
      value.literal

/-- The parameters of the constructor of a class, its own or inherited. -/
def constructorParametersOf (index : Index) (command : Declaration) : List String :=
  match Hierarchy.findMethod index command constructorMethod with
  | none => []
  | some (_, constructor) => constructor.parameters.map (parameterText constructor)

/-- The first known interface of the given names that has a `handle` method: the type that declares
the method, and the method. -/
def handleOfInterfaces (index : Index) (names : List String) : Option (Declaration × Method) :=
  names.findSome? fun name =>
    (index.find? name).bind fun interface => Hierarchy.findMethod index interface handleMethod

/-- The `handle` method of a handler, preferably that of an interface, with the type that declares
it. -/
def handleOf (index : Index) (handler : Declaration) : Option (Declaration × Method) :=
  match handleOfInterfaces index (Hierarchy.interfaceNames index handler) with
  | some found => some found
  | none => Hierarchy.findMethod index handler handleMethod

/-- The name that a short name stands for in the file of the first of the given types that has an
entry for it among its imports; the short name itself if no file has. -/
def qualify (types : List Declaration) (short : String) : String :=
  match types.findSome? fun d => d.source.bind (DocComment.import? · short) with
  | some name => name
  | none => short

/-- The documented type of a `@return` tag with qualified names. -/
def qualifyTag (types : List Declaration) (tag : String) : String :=
  match DocComment.splitArray tag with
  | (element, true) => qualify types element ++ "[]"
  | (element, false) => qualify types element

/-- The type that a handler returns, which is `void` if nothing tells. -/
def returnTypeOf (index : Index) (handler : Declaration) : Except Error String :=
  match handleOf index handler with
  | none => .error (.unknownMethod handler.name handleMethod)
  | some (declaring, method) =>
    match method.doc.bind DocComment.returnTag? with
    | some tag => .ok (qualifyTag [handler, declaring] tag)
    | none => .ok (method.returnType.getD "void")

/-- The definition of a command or query that is handled by the given handler. Both names may have
leading backslashes. The given function finds the domain of a class. -/
def readWith (index : Index) (domainOf : String → String) (handlerName commandName : String) :
    Except Error Definition :=
  match resolve index commandName with
  | .error error => .error error
  | .ok command =>
    match resolve index handlerName with
    | .error error => .error error
    | .ok handler =>
      match returnTypeOf index handler with
      | .error error => .error error
      | .ok returnType =>
        let commandClass := plainName commandName
        .ok {
          kind := .ofClass commandClass
          domain := domainOf commandClass
          handlerClass := plainName handlerName
          commandClass
          constructorParameters := constructorParametersOf index command
          description := (command.doc.map DocComment.summary).getD ""
          returnType
          handlerInterfaces := Hierarchy.interfaceNames index handler
          simpleClassName := shortName commandClass
          slug := Text.Kebab.kebab (shortName commandClass) }

/-- The definition of a command or query whose domain a pattern finds. -/
def read (index : Index) (pattern : DomainPattern) (handlerName commandName : String) :
    Except Error Definition :=
  readWith index pattern.domain handlerName commandName

end BusReference.Definition
