import BusReference.Definition.Reading

/-!
# Handler maps

Which handler takes which command or query. A map keeps its handlers in the order in which they
first came; the last command given for a handler counts. A map is given by a manifest, or discovered
from the attributes of the handler classes.
-/

namespace BusReference

open BusReference.Php (Declaration Index)

/-- Handler classes with the command or query classes that they handle. -/
structure HandlerMap where
  entries : List (String × String) := []
  deriving DecidableEq, Repr

namespace HandlerMap

/-- Gives the handler of the entries a command, in its place or after all other handlers. -/
def put (handler command : String) : List (String × String) → List (String × String)
  | [] => [(handler, command)]
  | (h, c) :: entries =>
    if h = handler then (h, command) :: entries else (h, c) :: put handler command entries

/-- The map in which the handler handles the command. -/
def insert (map : HandlerMap) (handler command : String) : HandlerMap :=
  ⟨put handler command map.entries⟩

/-- The map of the given pairs, inserted one after another. -/
def ofList (pairs : List (String × String)) : HandlerMap :=
  pairs.foldl (fun map (handler, command) => map.insert handler command) {}

/-- The attributes that put a class on the bus of commands or on that of queries. -/
def handlerAttributes : List String := ["AsCommandHandler", "AsQueryHandler"]

/-- A class that an attribute puts on a bus. -/
def isHandler (d : Declaration) : Bool :=
  d.kind == .classType && handlerAttributes.any d.hasAttribute

/-- The declared type of the first parameter of a handler's `handle` method. -/
def handledType? (index : Index) (d : Declaration) : Option String :=
  match Php.Hierarchy.findMethod index d Definition.handleMethod with
  | none => none
  | some (_, method) => method.parameters.head?.bind (·.declaredType)

/-- The handlers of an index in their order, each with the type it handles. -/
def discover (index : Index) : HandlerMap :=
  ofList <| (index.types.filter isHandler).filterMap fun d =>
    (handledType? index d).map (d.name, ·)

/-- The names of the handlers of an index that do not tell what they handle. -/
def untyped (index : Index) : List String :=
  ((index.types.filter isHandler).filter fun d => (handledType? index d).isNone).map (·.name)

end HandlerMap

end BusReference
