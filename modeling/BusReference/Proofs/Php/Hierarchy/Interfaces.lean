import BusReference.Proofs.Graph.Walk
import BusReference.Proofs.Php.Hierarchy.Registration

/-!
# Listing of interfaces

The interfaces of a type are those that it and its parent classes declare, and
all that these extend.  Two walks list them: one up the chain of parent classes,
and one over the names that are found on the way.  Neither enters anything
twice, so cycles do not matter.

Where nothing above a type extends itself, the list is the plain one without its
repeats: the declared interfaces in order, each followed by what it extends,
then those of the parent classes.
-/

namespace BusReference.Php.Hierarchy

open BusReference.Graph (Acyclic Step Unfolds walk)
open Relation (ReflTransGen TransGen)

/-! ## The chain of parent classes -/

/-- The second type is the known parent class of the first one. -/
def HasParent (index : Index) (d p : Declaration) : Prop :=
  d.parent.bind index.find? = some p

theorem HasParent.mem_types
    {index : Index} {d p : Declaration} (parent : HasParent index d p) :
    p ∈ index.types := by
  obtain ⟨name, -, known⟩ := Option.bind_eq_some_iff.mp parent
  exact Index.mem_of_find? known

/-- The known parent class of a type, if there is one. -/
def parents (index : Index) (d : Declaration) : List Declaration :=
  (d.parent.bind index.find?).toList

theorem mem_parents_iff {index : Index} {d p : Declaration} :
    p ∈ parents index d ↔ HasParent index d p := by
  rw [parents, Option.mem_toList, HasParent]

theorem step_parents (index : Index) : Step (parents index) = HasParent index :=
  funext₂ fun _ _ => propext mem_parents_iff

/-- The chain of parent classes among some types is a walk over them. -/
theorem lineage_eq_walk
    {index : Index} (distinct : Distinct index.types)
    {types : List Declaration} (known : types ⊆ index.types)
    (d : Declaration) :
    lineage types d = d :: walk (parents index) types (parents index d) := by
  fun_induction lineage types d with
  | case1 types d orphan => simp [parents, orphan]
  | case2 types d parent extended missing =>
      rw [parents, extended, Option.bind_some]
      cases found : index.find? parent with
      | none => simp
      | some p =>
          have left : p ∉ types := fun member =>
            absurd ((Index.lookup_eq_some_iff_find? distinct known).mpr
              ⟨found, member⟩) (by simp [missing])
          rw [Option.toList_some, Graph.walk_cons_of_not_mem left,
            Graph.walk_nil]
  | case3 types d parent extended p found shorter ih =>
      obtain ⟨inIndex, member⟩ :=
        (Index.lookup_eq_some_iff_find? distinct known).mp found
      have unique : ∀ e ∈ types, e.name = p.name → e = p := fun e listed =>
        distinct e (known listed) p (known member)
      rw [ih (List.Subset.trans (without_subset _ _) known)]
      conv_rhs => rw [parents]
      rw [extended, Option.bind_some, inIndex, Option.toList_some,
        Graph.walk_cons_of_mem member, List.append_nil, without_eq unique]

/-- The chain goes on with the parent class, if that is among the types. -/
theorem lineage_eq_cons
    {index : Index} (distinct : Distinct index.types)
    {types : List Declaration} (known : types ⊆ index.types)
    {d p : Declaration} (parent : HasParent index d p) (member : p ∈ types) :
    lineage types d = d :: lineage (without p.name types) p := by
  have unique : ∀ e ∈ types, e.name = p.name → e = p := fun e listed =>
    distinct e (known listed) p (known member)
  have next : parents index d = [p] := by
    rw [parents, parent, Option.toList_some]
  rw [lineage_eq_walk distinct known, next, Graph.walk_cons_of_mem member,
    List.append_nil,
    lineage_eq_walk distinct (List.Subset.trans (without_subset _ _) known),
    without_eq unique]

/-- The chain from a type on lists the type and all its known parent classes. -/
theorem mem_lineage_iff
    {index : Index} (distinct : Distinct index.types) {d : Declaration}
    (unique : ∀ e ∈ index.types, e.name = d.name → e = d) {e : Declaration} :
    e ∈ lineage (without d.name index.types) d ↔
      ReflTransGen (HasParent index) d e := by
  have asWalk : lineage (without d.name index.types) d =
      walk (parents index) (d :: index.types) [d] := by
    rw [lineage_eq_walk distinct (without_subset _ _),
      Graph.walk_cons_of_mem List.mem_cons_self, without_eq unique,
      List.append_nil, Graph.without_cons_self]
  rw [asWalk, Graph.mem_walk_iff, ← step_parents]
  · simp
  · simp
  · exact fun a b edge =>
      List.mem_cons_of_mem _ (mem_parents_iff.mp edge).mem_types

/-! ## The names on the way -/

theorem listInterfaces_eq_walk
    (index : Index) (fresh names : List String) :
    listInterfaces index fresh names =
      walk (interfacesOf index) fresh names := by
  fun_induction walk (interfacesOf index) fresh names with
  | case1 => rw [listInterfaces]
  | case2 fresh name names entered shorter ih =>
      rw [listInterfaces, dif_pos entered]
      exact congrArg _ ih
  | case3 fresh name names known ih => rw [listInterfaces, dif_neg known, ih]

/-- The names of interfaces that a type has. -/
inductive HasInterface (index : Index) (d : Declaration) : String → Prop
  | declared {e : Declaration} {name : String}
      (inherits : ReflTransGen (HasParent index) d e)
      (declares : name ∈ e.interfaces) : HasInterface index d name
  | extended {name other : String} {e : Declaration}
      (has : HasInterface index d name)
      (known : index.find? name = some e)
      (extending : other ∈ e.interfaces) : HasInterface index d other

theorem interfacesOf_of_known
    {index : Index} {name : String} {e : Declaration}
    (known : index.find? name = some e) :
    interfacesOf index name = e.interfaces := by
  rw [interfacesOf, known]

theorem interfacesOf_of_unknown
    {index : Index} {name : String} (unknown : index.find? name = none) :
    interfacesOf index name = [] := by
  rw [interfacesOf, unknown]

theorem mem_interfacesOf_iff {index : Index} {name other : String} :
    other ∈ interfacesOf index name ↔
      ∃ e, index.find? name = some e ∧ other ∈ e.interfaces := by
  cases found : index.find? name with
  | none => simp [interfacesOf_of_unknown found]
  | some e => simp [interfacesOf_of_known found]

/-- The names that a type and its parent classes declare, in their order. -/
def declaredNames (index : Index) (d : Declaration) : List String :=
  (lineage (without d.name index.types) d).flatMap (·.interfaces)

theorem hasInterface_iff_reaches
    {index : Index} (distinct : Distinct index.types) {d : Declaration}
    (unique : ∀ e ∈ index.types, e.name = d.name → e = d) {name : String} :
    HasInterface index d name ↔
      ∃ n ∈ declaredNames index d,
        Graph.Reaches (interfacesOf index) n name := by
  constructor
  · intro has
    induction has with
    | @declared e name inherits declares =>
        refine ⟨name, List.mem_flatMap.mpr ⟨e, ?_, declares⟩, .refl⟩
        exact (mem_lineage_iff distinct unique).mpr inherits
    | extended _ known extending ih =>
        obtain ⟨n, declared, reaches⟩ := ih
        exact ⟨n, declared,
          reaches.tail (mem_interfacesOf_iff.mpr ⟨_, known, extending⟩)⟩
  · rintro ⟨n, declared, reaches⟩
    induction reaches with
    | refl =>
        obtain ⟨e, inherits, declares⟩ := List.mem_flatMap.mp declared
        exact .declared ((mem_lineage_iff distinct unique).mp inherits) declares
    | tail _ edge ih =>
        obtain ⟨e, known, extending⟩ := mem_interfacesOf_iff.mp edge
        exact .extended ih known extending

/-- The names that the walk over interfaces may enter. -/
def knownNames (index : Index) (d : Declaration) : List String :=
  declaredNames index d ++ index.types.flatMap (·.interfaces)

theorem interfaceNames_eq_walk (index : Index) (d : Declaration) :
    interfaceNames index d =
      walk (interfacesOf index) (knownNames index d) (declaredNames index d) :=
  listInterfaces_eq_walk _ _ _

theorem mem_knownNames_of_mem_declaredNames
    {index : Index} {d : Declaration} {name : String}
    (declared : name ∈ declaredNames index d) : name ∈ knownNames index d :=
  List.mem_append_left _ declared

theorem mem_knownNames_of_step
    {index : Index} (d : Declaration) {name other : String}
    (edge : Step (interfacesOf index) name other) :
    other ∈ knownNames index d := by
  obtain ⟨e, known, extending⟩ := mem_interfacesOf_iff.mp edge
  exact List.mem_append_right _
    (List.mem_flatMap.mpr ⟨e, Index.mem_of_find? known, extending⟩)

/-! ## The plain list -/

/-- The second type is the known parent class or a known interface of the first
one. -/
inductive Extends (index : Index) (d p : Declaration) : Prop
  | ofParent (parent : HasParent index d p)
  | ofInterface {name : String} (declared : name ∈ d.interfaces)
      (known : index.find? name = some p)

theorem transGen_extends
    {index : Index} {d e : Declaration}
    (reaches : TransGen (HasParent index) d e) : TransGen (Extends index) d e :=
  TransGen.mono (fun _ _ parent => Extends.ofParent parent) d e reaches

theorem Extends.mem_types
    {index : Index} {d p : Declaration} (extending : Extends index d p) :
    p ∈ index.types := by
  cases extending with
  | ofParent parent => exact parent.mem_types
  | ofInterface declared known => exact Index.mem_of_find? known

/-- The interfaces that a type declares, each followed by all that it
extends. -/
def plainInterfaces (index : Index) (d : Declaration)
    (ends : Acc (Function.swap (Extends index)) d) : List String :=
  d.interfaces.attach.flatMap fun ⟨name, declared⟩ =>
    name ::
      match known : index.find? name with
      | none => []
      | some p =>
          plainInterfaces index p (ends.inv (.ofInterface declared known))
  termination_by
    (⟨d, ends⟩ : { e // Acc (Function.swap (Extends index)) e })
  decreasing_by exact .ofInterface declared known

/--
The interfaces of a type with all repeats: the declared ones, each followed by
all that it extends, then those of the parent classes.
-/
def plainListing (index : Index) (d : Declaration)
    (ends : Acc (Function.swap (Extends index)) d) : List String :=
  plainInterfaces index d ends ++
    match known : d.parent.bind index.find? with
    | none => []
    | some p => plainListing index p (ends.inv (.ofParent known))
  termination_by
    (⟨d, ends⟩ : { e // Acc (Function.swap (Extends index)) e })
  decreasing_by exact .ofParent known

theorem unfolds_plainInterfaces
    (index : Index) (d : Declaration)
    (ends : Acc (Function.swap (Extends index)) d) :
    Unfolds (interfacesOf index) d.interfaces
      (plainInterfaces index d ends) := by
  induction ends with
  | intro d above ih =>
      rw [plainInterfaces]
      refine Unfolds.flatMap_attach (fun ⟨name, declared⟩ =>
        match known : index.find? name with
        | none => []
        | some p => plainInterfaces index p
            (above p (.ofInterface declared known))) ?_
      rintro ⟨name, declared⟩
      dsimp only
      split
      · rename_i missing
        rw [interfacesOf_of_unknown missing]
        exact .nil
      · rename_i p known
        rw [interfacesOf_of_known known]
        exact ih p (.ofInterface declared known)

/-- The plain list is a walk without memory over the names on the chain. -/
theorem unfolds_plainListing
    {index : Index} (distinct : Distinct index.types)
    (d : Declaration) (ends : Acc (Function.swap (Extends index)) d)
    {types : List Declaration} (known : types ⊆ index.types)
    (above : ∀ e, TransGen (HasParent index) d e → e ∈ types) :
    Unfolds (interfacesOf index) ((lineage types d).flatMap (·.interfaces))
      (plainListing index d ends) := by
  induction ends generalizing types with
  | intro d ends ih =>
      have own := unfolds_plainInterfaces index d ⟨d, ends⟩
      rw [plainListing]
      split
      · rename_i orphan
        have alone : lineage types d = [d] := by
          rw [lineage_eq_walk distinct known, parents, orphan,
            Option.toList_none, Graph.walk_nil]
        rw [alone, List.flatMap_singleton, List.append_nil]
        exact own
      · rename_i p parent
        have member : p ∈ types := above p (.single parent)
        have unique : ∀ e ∈ types, e.name = p.name → e = p := fun e listed =>
          distinct e (known listed) p (known member)
        -- the parent class does not lead back to itself
        have onward : ∀ e, TransGen (HasParent index) p e →
            e ∈ without p.name types := by
          intro e reaches
          rw [without_eq unique, Graph.mem_without]
          refine ⟨above e (.head parent reaches), ?_⟩
          rintro rfl
          exact Graph.not_transGen_self_of_acc (ends _ (.ofParent parent))
            (transGen_extends reaches)
        rw [lineage_eq_cons distinct known parent member, List.flatMap_cons]
        exact own.append (ih p (.ofParent parent)
          (List.Subset.trans (without_subset _ _) known) onward)

/-- No type at or above the given one extends itself, and so the ways upwards
end. -/
theorem acc_extends_of_acyclic
    {index : Index} {d : Declaration} (acyclic : Acyclic (Extends index) d) :
    Acc (Function.swap (Extends index)) d :=
  acyclic.acc fun _ _ extending => extending.mem_types

/--
In every index a type has each of its interfaces listed once and nothing else
listed.  Where no type at or above it extends itself, this is the plain list in
which only the first occurrence of each name is kept.
-/
theorem interfaceNames_complete
    {index : Index} (registered : index.Registered) {d : Declaration}
    (known : d ∈ index.types ∨ ∀ e ∈ index.types, e.name ≠ d.name) :
    (interfaceNames index d).Nodup ∧
      (∀ name, name ∈ interfaceNames index d ↔ HasInterface index d name) ∧
      ∀ acyclic : Acyclic (Extends index) d,
        interfaceNames index d =
          (plainListing index d
            (acc_extends_of_acyclic acyclic)).eraseDups := by
  have distinct := registered.distinct
  have unique : ∀ e ∈ index.types, e.name = d.name → e = d := by
    intro e member same
    rcases known with listed | apart
    · exact distinct e member d listed same
    · exact absurd same (apart e member)
  have inside : ∀ name ∈ declaredNames index d, name ∈ knownNames index d :=
    fun _ => mem_knownNames_of_mem_declaredNames
  have closed : ∀ a b, Step (interfacesOf index) a b → b ∈ knownNames index d :=
    fun _ _ => mem_knownNames_of_step d
  rw [interfaceNames_eq_walk]
  refine ⟨Graph.nodup_walk _ _, ?_, ?_⟩
  · intro name
    rw [Graph.mem_walk_iff inside closed,
      hasInterface_iff_reaches distinct unique]
  · intro acyclic
    refine Graph.walk_eq_eraseDups (unfolds_plainListing distinct d _
      (without_subset _ _) ?_) inside closed
    intro e reaches
    rw [without_eq unique, Graph.mem_without]
    constructor
    · obtain ⟨u, -, last⟩ := TransGen.tail'_iff.mp reaches
      exact last.mem_types
    · rintro rfl
      exact acyclic e .refl (transGen_extends reaches)

/-- A handler that has an interface twice, by itself and by its parent class. -/
def taxHandler : Declaration where
  name := "TaxHandler"
  kind := .classType
  parent := some "\\Worker"
  interfaces := ["Handles", "Countable"]

def worker : Declaration where
  name := "Worker"
  kind := .classType
  interfaces := ["Named", "Handles"]

def handles : Declaration where
  name := "Handles"
  kind := .interfaceType
  interfaces := ["Named"]

def handlerIndex : Index :=
  ({} : Index).registerAll [taxHandler, worker, handles]

theorem acyclic_taxHandler : Acyclic (Extends handlerIndex) taxHandler := by
  have ranked : ∀ d ∈ taxHandler :: handlerIndex.types,
      ∀ p ∈ parents handlerIndex d ++
          d.interfaces.filterMap handlerIndex.find?,
        p ∈ handlerIndex.types ∧ p.interfaces.length + p.parent.toList.length <
          d.interfaces.length + d.parent.toList.length := by
    decide +kernel
  refine Graph.acyclic_of_rank handlerIndex.types _ fun d member p extending =>
    ranked d member p ?_
  cases extending with
  | ofParent parent =>
      exact List.mem_append_left _ (mem_parents_iff.mpr parent)
  | ofInterface declared known =>
      exact List.mem_append_right _
        (List.mem_filterMap.mpr ⟨_, declared, known⟩)

/-- The handler has the interface that its own one extends, and lists it
once. -/
theorem interfaceNames_complete_taxHandler :
    handlerIndex.Registered ∧ taxHandler ∈ handlerIndex.types ∧
      "Named" ∈ interfaceNames handlerIndex taxHandler ∧
      (interfaceNames handlerIndex taxHandler).Nodup ∧
      interfaceNames handlerIndex taxHandler =
        (plainListing handlerIndex taxHandler
          (acc_extends_of_acyclic acyclic_taxHandler)).eraseDups := by
  have registered : handlerIndex.Registered :=
    Index.Registered.empty.registerAll _
  have listed : taxHandler ∈ handlerIndex.types := by decide +kernel
  obtain ⟨nodup, complete, plain⟩ :=
    interfaceNames_complete registered (Or.inl listed)
  have named : HasInterface handlerIndex taxHandler "Named" :=
    .extended (.declared .refl List.mem_cons_self)
      (show handlerIndex.find? "Handles" = some handles by decide +kernel)
      List.mem_cons_self
  exact ⟨registered, listed, (complete "Named").mpr named, nodup,
    plain acyclic_taxHandler⟩

end BusReference.Php.Hierarchy
