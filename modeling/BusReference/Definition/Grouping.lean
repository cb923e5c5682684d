import BusReference.HandlerMap.Basic

/-!
# Definitions by domain

The definitions of a handler map, grouped by domain and kind. Domains come in ascending order, and
so do the command classes within each list; definitions of one class keep the order of the map.
-/

namespace BusReference

open BusReference.Php (Index)

/-- The definitions of one domain. -/
structure DomainDefinitions where
  commands : List Definition := []
  queries : List Definition := []
  deriving DecidableEq, Repr

namespace DomainDefinitions

/-- The number of definitions. -/
def size (ds : DomainDefinitions) : Nat := ds.commands.length + ds.queries.length

/-- The domain has no definitions. -/
def isEmpty (ds : DomainDefinitions) : Bool := ds.commands.isEmpty && ds.queries.isEmpty

/-- All definitions, queries first. -/
def toList (ds : DomainDefinitions) : List Definition := ds.queries ++ ds.commands

/-- Puts a definition behind all those whose command class is not greater than its own. -/
def insertByClass (d : Definition) : List Definition → List Definition
  | [] => [d]
  | e :: es => if d.commandClass < e.commandClass then d :: e :: es else e :: insertByClass d es

/-- Adds a definition to the list of its kind. -/
def add (d : Definition) (ds : DomainDefinitions) : DomainDefinitions :=
  match d.kind with
  | .command => { ds with commands := insertByClass d ds.commands }
  | .query => { ds with queries := insertByClass d ds.queries }

end DomainDefinitions

/-- The definitions of each domain, the domains in ascending order. The domain of the empty name
holds the classes outside every domain. -/
structure Grouping where
  domains : List (String × DomainDefinitions) := []
  deriving DecidableEq, Repr

namespace Grouping

/-- Changes what is listed under a name; a name that is not listed yet has no definitions. -/
def change (name : String) (f : DomainDefinitions → DomainDefinitions) :
    List (String × DomainDefinitions) → List (String × DomainDefinitions)
  | [] => [(name, f {})]
  | (other, ds) :: rest =>
    if name < other then (name, f {}) :: (other, ds) :: rest
    else if name = other then (other, f ds) :: rest
    else (other, ds) :: change name f rest

/-- Adds a definition to its domain. -/
def add (g : Grouping) (d : Definition) : Grouping :=
  ⟨change d.domain (·.add d) g.domains⟩

/-- Replaces all definitions of a domain. -/
def set (g : Grouping) (domain : String) (ds : DomainDefinitions) : Grouping :=
  ⟨change domain (fun _ => ds) g.domains⟩

/-- The definitions of all domains, in each domain the queries first. -/
def toList (g : Grouping) : List Definition := g.domains.flatMap fun (_, ds) => ds.toList

/-- Adds what a reader makes of pairs of a handler and a command, up to the first pair that it
refuses. -/
def addAll {ε : Type} (reader : String → String → Except ε Definition) (g : Grouping) :
    List (String × String) → Except ε Grouping
  | [] => .ok g
  | (handler, command) :: pairs =>
    match reader handler command with
    | .error error => .error error
    | .ok d => (g.add d).addAll reader pairs

/-- What a reader makes of a handler map, by domain. -/
def collect {ε : Type} (reader : String → String → Except ε Definition) (handlers : HandlerMap) :
    Except ε Grouping :=
  addAll reader {} handlers.entries

/-- What a reader makes of a handler map, domain after domain. -/
def collectAll {ε : Type} (reader : String → String → Except ε Definition)
    (handlers : HandlerMap) : Except ε (List Definition) :=
  (collect reader handlers).map toList

/-- The definitions of a handler map by domain. -/
def ofHandlers (index : Index) (pattern : DomainPattern) (handlers : HandlerMap) :
    Except Error Grouping :=
  collect (Definition.read index pattern) handlers

/-- The domains that have definitions. -/
def inhabited (g : Grouping) : List (String × DomainDefinitions) :=
  g.domains.filter fun (_, ds) => !ds.isEmpty

end Grouping

end BusReference
