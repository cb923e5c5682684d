import BusReference.Php.Hierarchy
import BusReference.Proofs.Graph.Walk

/-!
# Registered declarations

An index is filled by registering declarations one after another.  Of all
declarations of one name it keeps the first, so a name has at most one
declaration in it, and what is found under a name is what has it.
-/

namespace BusReference.Php

/-- No two of the declarations share a name. -/
def Distinct (types : List Declaration) : Prop :=
  ∀ d ∈ types, ∀ e ∈ types, d.name = e.name → d = e

theorem Distinct.subset
    {types others : List Declaration} (distinct : Distinct types)
    (subset : others ⊆ types) : Distinct others :=
  fun d member e other => distinct d (subset member) e (subset other)

namespace Index

/-- The index was filled by registering declarations. -/
inductive Registered : Index → Prop
  | empty : Registered {}
  | register {index : Index}
      (registered : Registered index) (d : Declaration) :
      Registered (index.register d)

theorem Registered.registerAll
    {index : Index} (registered : index.Registered)
    (ds : List Declaration) : (index.registerAll ds).Registered := by
  induction ds generalizing index with
  | nil => exact registered
  | cons d ds ih => exact ih (registered.register d)

theorem exists_registerAll_of_addSource
    {index after : Index} {text : String} {path : Option Files.FilePath}
    (added : index.addSource text path = .ok after) :
    ∃ ds, SourceFile.read text path = .ok ds ∧
      after = index.registerAll ds := by
  rw [addSource] at added
  split at added
  · cases added
  · rename_i ds read
    cases added
    exact ⟨ds, read, rfl⟩

/-- Adding a source text registers what it declares. -/
theorem Registered.addSource
    {index after : Index} (registered : index.Registered)
    {text : String} {path : Option Files.FilePath}
    (added : index.addSource text path = .ok after) : after.Registered := by
  obtain ⟨ds, -, rfl⟩ := exists_registerAll_of_addSource added
  exact registered.registerAll ds

/-- What is registered was in the index before or is the new declaration. -/
theorem mem_register
    {index : Index} {d e : Declaration}
    (member : e ∈ (index.register d).types) :
    e ∈ index.types ∨ e = d := by
  rw [register] at member
  split at member
  · exact Or.inl member
  · rcases List.mem_append.mp member with old | new
    · exact Or.inl old
    · exact Or.inr (List.mem_singleton.mp new)

theorem name_ne_of_lookup_eq_none
    {types : List Declaration} {name : String}
    (missing : lookup types name = none)
    {d : Declaration} (member : d ∈ types) : d.name ≠ name := by
  have unequal := List.find?_eq_none.mp missing d member
  simpa using unequal

/-- An index has at most one declaration of a name. -/
theorem Registered.distinct
    {index : Index} (registered : index.Registered) : Distinct index.types := by
  induction registered with
  | empty =>
      intro d member
      cases member
  | @register index registered d ih =>
      rw [Index.register]
      split
      · exact ih
      · rename_i missing
        have apart : ∀ e ∈ index.types, e.name ≠ d.name :=
          fun e member => name_ne_of_lookup_eq_none missing member
        intro a first b second same
        rcases List.mem_append.mp first with old | new
        · rcases List.mem_append.mp second with other | latest
          · exact ih a old b other same
          · rw [List.mem_singleton.mp latest] at same
            exact absurd same (apart a old)
        · rw [List.mem_singleton.mp new] at same ⊢
          rcases List.mem_append.mp second with other | latest
          · exact absurd same.symm (apart b other)
          · exact (List.mem_singleton.mp latest).symm

/-! ## What is found under a name -/

theorem mem_of_lookup
    {types : List Declaration} {name : String} {d : Declaration}
    (found : lookup types name = some d) : d ∈ types ∧ d.name = name :=
  ⟨List.mem_of_find?_eq_some found, by simpa using List.find?_some found⟩

theorem mem_of_find?
    {index : Index} {name : String} {d : Declaration}
    (found : index.find? name = some d) : d ∈ index.types :=
  (mem_of_lookup found).1

theorem lookup_eq_some_iff
    {types : List Declaration} (distinct : Distinct types)
    {name : String} {d : Declaration} :
    lookup types name = some d ↔ d ∈ types ∧ d.name = name := by
  refine ⟨mem_of_lookup, ?_⟩
  rintro ⟨member, rfl⟩
  cases found : lookup types d.name with
  | none => exact absurd rfl (name_ne_of_lookup_eq_none found member)
  | some e =>
      obtain ⟨other, same⟩ := mem_of_lookup found
      rw [distinct e other d member same]

/-- Among some of the types of an index a name stands for the same as in the
index. -/
theorem lookup_eq_some_iff_find?
    {index : Index} (distinct : Distinct index.types)
    {types : List Declaration} (known : types ⊆ index.types)
    {name : String} {d : Declaration} :
    lookup types (plainName name) = some d ↔
      index.find? name = some d ∧ d ∈ types := by
  rw [lookup_eq_some_iff (distinct.subset known), find?,
    lookup_eq_some_iff distinct]
  exact ⟨fun ⟨member, named⟩ => ⟨⟨known member, named⟩, member⟩,
    fun ⟨⟨_, named⟩, member⟩ => ⟨member, named⟩⟩

end Index

/-- Leaving out a name leaves out the only type that has it. -/
theorem Hierarchy.without_eq
    {types : List Declaration} {d : Declaration}
    (unique : ∀ e ∈ types, e.name = d.name → e = d) :
    without d.name types = Graph.without d types := by
  refine List.filter_congr fun e member => ?_
  by_cases same : e = d
  · subst same
    simp
  · have apart : e.name ≠ d.name := fun named => same (unique e member named)
    rw [bne_iff_ne.mpr apart, bne_iff_ne.mpr same]

theorem Hierarchy.without_subset (name : String) (types : List Declaration) :
    without name types ⊆ types :=
  fun _ listed => (List.mem_filter.mp listed).1

end BusReference.Php
