import BusReference.Php.Declaration
import BusReference.Text.Kebab

/-!
# Definitions

A definition is what the reference says about one command or query: the class itself, the parameters
of its constructor, and the handler that takes it from the bus.
-/

namespace BusReference

/-- Whether a definition describes a command or a query. -/
inductive DefinitionKind where
  | command
  | query
  deriving DecidableEq, Repr

namespace DefinitionKind

/-- A class in a namespace segment `Command` is a command, every other one a query. -/
def ofClass (className : String) : DefinitionKind :=
  if Text.Pieces.occurs "\\Command\\".toList className.toList then command else query

/-- The name of a kind in small letters. -/
def name : DefinitionKind → String
  | command => "command"
  | query => "query"

/-- The title of a kind. -/
def title : DefinitionKind → String
  | command => "Command"
  | query => "Query"

end DefinitionKind

/-- What the reference says about a command or a query. -/
structure Definition where
  kind : DefinitionKind
  /-- The business domain; empty for a class outside every domain. -/
  domain : String
  handlerClass : String
  commandClass : String
  /-- The constructor's parameters as they are written, such as `?string $address2 = NULL`. -/
  constructorParameters : List String
  description : String
  returnType : String
  /-- The names of all interfaces of the handler. -/
  handlerInterfaces : List String
  simpleClassName : String
  slug : String
  deriving DecidableEq, Repr

end BusReference
