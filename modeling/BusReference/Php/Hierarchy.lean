import BusReference.Php.Index

/-!
# Hierarchy of types

Which methods a type inherits and which interfaces it has. Both questions are answered by a
depth-first walk that enters every type, or every name, at most once, so that cycles do no harm.
What is still to be entered shrinks with every step.
-/

namespace BusReference.Php.Hierarchy

/-- The declarations of other names than the given one. -/
def without (name : String) (types : List Declaration) : List Declaration :=
  types.filter (·.name != name)

theorem length_without_lt {types : List Declaration} {name : String} {d : Declaration}
    (h : Index.lookup types name = some d) : (without d.name types).length < types.length := by
  refine List.length_filter_lt_length_iff_exists.2 ⟨d, List.mem_of_find?_eq_some h, ?_⟩
  simp

/-- The names of the types from which a type inherits methods, in the order of the search: traits,
the parent class and, for an interface, the interfaces it extends. -/
def inherited (d : Declaration) : List String :=
  d.traits ++ d.parent.toList ++ if d.kind = .interfaceType then d.interfaces else []

/-- Searches the named types and what they inherit from for a method, first name first. Only the
given types are known. -/
def searchMethod (method : String) (types : List Declaration) :
    List String → Option (Declaration × Method)
  | [] => none
  | name :: names =>
    match h : Index.lookup types (plainName name) with
    | none => searchMethod method types names
    | some d =>
      match d.method? method with
      | some m => some (d, m)
      | none =>
        have := length_without_lt h
        searchMethod method (without d.name types) (inherited d ++ names)
  termination_by names => (types.length, names.length)

/-- The method of a type, declared by itself or inherited, with the type that declares it. -/
def findMethod (index : Index) (d : Declaration) (method : String) :
    Option (Declaration × Method) :=
  match d.method? method with
  | some m => some (d, m)
  | none => searchMethod method (without d.name index.types) (inherited d)

/-- A type and the chain of its parents among the given types. -/
def lineage (types : List Declaration) (d : Declaration) : List Declaration :=
  match d.parent with
  | none => [d]
  | some parent =>
    match h : Index.lookup types (plainName parent) with
    | none => [d]
    | some p =>
      have := length_without_lt h
      d :: lineage (without p.name types) p
  termination_by types.length

/-- The interfaces that a type of the given name has by its own declaration. -/
def interfacesOf (index : Index) (name : String) : List String :=
  match index.find? name with
  | some d => d.interfaces
  | none => []

/-- The names in front and all that they extend, each followed by what it extends, without repeats.
Only the names in `fresh` have not been listed before. -/
def listInterfaces (index : Index) (fresh : List String) : List String → List String
  | [] => []
  | name :: names =>
    if h : name ∈ fresh then
      have : (fresh.filter (· != name)).length < fresh.length :=
        List.length_filter_lt_length_iff_exists.2 ⟨name, h, by simp⟩
      name :: listInterfaces index (fresh.filter (· != name)) (interfacesOf index name ++ names)
    else listInterfaces index fresh names
  termination_by names => (fresh.length, names.length)

/-- The names of all interfaces of a type: the declared ones, each followed by those it extends,
then those of the parent classes. -/
def interfaceNames (index : Index) (d : Declaration) : List String :=
  let declared := (lineage (without d.name index.types) d).flatMap (·.interfaces)
  listInterfaces index (declared ++ index.types.flatMap (·.interfaces)) declared

end BusReference.Php.Hierarchy
