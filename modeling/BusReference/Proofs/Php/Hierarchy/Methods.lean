import BusReference.Proofs.Graph.Walk
import BusReference.Proofs.Php.Hierarchy.Registration

/-!
# Search for inherited methods

The search for a method walks over a type and all that it inherits from, in
depth-first order, and ends with the first type that declares the method.  It
enters no type twice, so cycles do not matter, and a type is passed over only
if nothing at or above it declares the method.

Where no type inherits from itself, this is the search without memory: the
method of the type itself, or the first that is found in a trait, then in the
parent class, then in an extended interface.
-/

namespace BusReference.Php.Hierarchy

open BusReference.Graph (Acyclic Reaches Step Unfolds walk)
open Relation (ReflTransGen)

/-! ## Direct inheritance -/

/-- The first type inherits methods from the second one, and not through
others. -/
inductive Inherits (index : Index) (d p : Declaration) : Prop
  | ofTrait {name : String} (used : name ∈ d.traits)
      (known : index.find? name = some p)
  | ofParent {name : String} (extended : d.parent = some name)
      (known : index.find? name = some p)
  | ofInterface {name : String} (kind : d.kind = .interfaceType)
      (extended : name ∈ d.interfaces) (known : index.find? name = some p)

/-- The known types from which a type inherits methods, in the order of the
search. -/
def sources (index : Index) (d : Declaration) : List Declaration :=
  (inherited d).filterMap index.find?

theorem mem_sources_iff {index : Index} {d p : Declaration} :
    p ∈ sources index d ↔ Inherits index d p := by
  simp only [sources, inherited, List.mem_filterMap, List.mem_append,
    Option.mem_toList]
  constructor
  · rintro ⟨name, (used | extended) | listed, known⟩
    · exact .ofTrait used known
    · exact .ofParent extended known
    · split at listed
      · rename_i kind
        exact .ofInterface kind listed known
      · cases listed
  · rintro (⟨used, known⟩ | ⟨extended, known⟩ | ⟨kind, extended, known⟩)
    · exact ⟨_, Or.inl (Or.inl used), known⟩
    · exact ⟨_, Or.inl (Or.inr extended), known⟩
    · exact ⟨_, Or.inr (by rwa [if_pos kind]), known⟩

theorem step_sources (index : Index) : Step (sources index) = Inherits index :=
  funext₂ fun _ _ => propext mem_sources_iff

theorem Inherits.mem_types
    {index : Index} {d p : Declaration} (inherits : Inherits index d p) :
    p ∈ index.types := by
  obtain ⟨-, known⟩ | ⟨-, known⟩ | ⟨-, -, known⟩ := inherits
  all_goals exact Index.mem_of_find? known

/-! ## Declared methods -/

theorem sameLetters_eq (s t : String) :
    Text.Pieces.sameLetters s t =
      (s.toList.map Char.toLower == t.toList.map Char.toLower) := by
  have letters (text : String) :
      text.toLower.toList = text.toList.map Char.toLower :=
    String.toList_map
  rw [Text.Pieces.sameLetters, Bool.eq_iff_iff, beq_iff_eq, beq_iff_eq,
    ← String.toList_inj, letters, letters]

/-- The type itself has a method of the name, up to the case of ASCII
letters. -/
def Declares (d : Declaration) (method : String) : Prop :=
  ∃ m ∈ d.methods, Text.Pieces.sameLetters m.name method = true

/-- The method that a type itself declares, with the type. -/
def ownMethod (method : String) (d : Declaration) :
    Option (Declaration × Method) :=
  (d.method? method).map (d, ·)

theorem ownMethod_eq_some_iff
    {method : String} {d e : Declaration} {m : Method} :
    ownMethod method d = some (e, m) ↔ d = e ∧ d.method? method = some m := by
  rw [ownMethod, Option.map_eq_some_iff]
  constructor
  · rintro ⟨own, found, same⟩
    cases same
    exact ⟨rfl, found⟩
  · rintro ⟨rfl, found⟩
    exact ⟨m, found, rfl⟩

theorem isSome_ownMethod_iff {method : String} {d : Declaration} :
    (ownMethod method d).isSome ↔ Declares d method := by
  rw [ownMethod, Option.isSome_map, Declaration.method?, List.find?_isSome]
  rfl

/-- The search ends with the first named type if that declares the method. -/
theorem searchMethod_cons_of_lookup
    {types : List Declaration} {name method : String} {names : List String}
    {d : Declaration} {m : Method}
    (known : Index.lookup types (plainName name) = some d)
    (declared : d.method? method = some m) :
    searchMethod method types (name :: names) = some (d, m) := by
  rw [searchMethod]
  split
  · rename_i missing
    rw [known] at missing
    cases missing
  · rename_i e found
    rw [known] at found
    cases found
    rw [declared]

/-! ## The search as a walk -/

/-- The search among some types ends with the first hit of a walk over them. -/
theorem searchMethod_eq_walk
    {index : Index} (distinct : Distinct index.types) (method : String)
    {types : List Declaration} (known : types ⊆ index.types)
    (names : List String) :
    searchMethod method types names =
      (walk (sources index) types (names.filterMap index.find?)).findSome?
        (ownMethod method) := by
  fun_induction searchMethod method types names with
  | case1 types => simp
  | case2 types name names missing ih =>
      rw [ih known, List.filterMap_cons]
      cases found : index.find? name with
      | none => rfl
      | some d =>
          have left : d ∉ types := fun member =>
            absurd ((Index.lookup_eq_some_iff_find? distinct known).mpr
              ⟨found, member⟩) (by simp [missing])
          dsimp only
          rw [Graph.walk_cons_of_not_mem left]
  | case3 types name names d found m own =>
      obtain ⟨inIndex, member⟩ :=
        (Index.lookup_eq_some_iff_find? distinct known).mp found
      rw [List.filterMap_cons, inIndex, Graph.walk_cons_of_mem member,
        List.findSome?_cons, ownMethod, own]
      rfl
  | case4 types name names d found other shorter ih =>
      obtain ⟨inIndex, member⟩ :=
        (Index.lookup_eq_some_iff_find? distinct known).mp found
      have unique : ∀ e ∈ types, e.name = d.name → e = d := fun e listed =>
        distinct e (known listed) d (known member)
      have fewer : without d.name types ⊆ index.types :=
        List.Subset.trans (without_subset _ _) known
      rw [List.filterMap_cons, inIndex, Graph.walk_cons_of_mem member,
        List.findSome?_cons, ownMethod, other, ih fewer, without_eq unique,
        List.filterMap_append]
      rfl

/-- The search for a method ends with the first hit of a walk over the type and
all that it inherits from. -/
theorem findMethod_eq_walk
    {index : Index} (distinct : Distinct index.types) {d : Declaration}
    (unique : ∀ e ∈ index.types, e.name = d.name → e = d) (method : String) :
    findMethod index d method =
      (walk (sources index) (d :: index.types) [d]).findSome?
        (ownMethod method) := by
  have others : Graph.without d (d :: index.types) =
      without d.name index.types := by
    rw [Graph.without_cons_self, without_eq unique]
  rw [Graph.walk_cons_of_mem List.mem_cons_self, List.findSome?_cons,
    ownMethod, others, List.append_nil, sources,
    ← searchMethod_eq_walk distinct method (without_subset _ _), findMethod]
  cases d.method? method <;> rfl

/-! ## The search without memory -/

/--
The method of a type itself, or else the first that is found in the types from
which it inherits, in their order.  Nothing is remembered, so this ends only
where every way upwards ends.
-/
def plainSearch (index : Index) (method : String) (d : Declaration)
    (ends : Acc (Function.swap (Inherits index)) d) :
    Option (Declaration × Method) :=
  match d.method? method with
  | some m => some (d, m)
  | none =>
    (sources index d).attach.findSome? fun ⟨p, member⟩ =>
      plainSearch index method p (ends.inv (mem_sources_iff.mp member))
  termination_by
    (⟨d, ends⟩ : { e // Acc (Function.swap (Inherits index)) e })
  decreasing_by exact mem_sources_iff.mp member

/-- The search without memory ends with the first hit of a walk without
memory. -/
theorem exists_unfolds_plainSearch
    (index : Index) (method : String) (d : Declaration)
    (ends : Acc (Function.swap (Inherits index)) d) :
    ∃ l, Unfolds (sources index) [d] l ∧
      plainSearch index method d ends = l.findSome? (ownMethod method) := by
  induction ends with
  | intro d above ih =>
      -- the walks from the single types make up the walk from all of them
      obtain ⟨l, unfolds, search⟩ := Unfolds.exists_findSome?
        Subtype.val (ownMethod method)
        (fun p : { p // p ∈ sources index d } => plainSearch index method p.1
          (above p.1 (mem_sources_iff.mp p.2)))
        fun p (_ : p ∈ (sources index d).attach) =>
          ih p.1 (mem_sources_iff.mp p.2)
      rw [List.attach_map_subtype_val] at unfolds
      refine ⟨d :: l ++ [], .cons unfolds .nil, ?_⟩
      rw [plainSearch, List.append_nil, List.findSome?_cons, ownMethod]
      cases d.method? method with
      | some m => rfl
      | none => exact search

/-- No type at or above the given one inherits from itself, and so the ways
upwards end. -/
theorem acc_of_acyclic
    {index : Index} {d : Declaration} (acyclic : Acyclic (Inherits index) d) :
    Acc (Function.swap (Inherits index)) d :=
  acyclic.acc fun _ _ inherits => inherits.mem_types

/--
In every index a search for a method finds one exactly if the type or anything
that it inherits from declares it, and what is found is declared by the type
that is returned.  Where no type at or above the given one inherits from itself,
it is what the search without memory finds.
-/
theorem findMethod_complete
    {index : Index} (registered : index.Registered)
    {d : Declaration} (listed : d ∈ index.types) (method : String) :
    ((findMethod index d method).isSome ↔
        ∃ e, ReflTransGen (Inherits index) d e ∧ Declares e method) ∧
      (∀ e m, findMethod index d method = some (e, m) →
        ReflTransGen (Inherits index) d e ∧ e.method? method = some m) ∧
      ∀ acyclic : Acyclic (Inherits index) d,
        findMethod index d method =
          plainSearch index method d (acc_of_acyclic acyclic) := by
  have distinct := registered.distinct
  have asWalk := findMethod_eq_walk distinct
    (fun e member same => distinct e member d listed same) method
  have inside : ∀ x ∈ [d], x ∈ d :: index.types := by simp
  have closed : ∀ a b, Step (sources index) a b → b ∈ d :: index.types :=
    fun a b edge => List.mem_cons_of_mem _ (mem_sources_iff.mp edge).mem_types
  have reached : ∀ e, e ∈ walk (sources index) (d :: index.types) [d] ↔
      ReflTransGen (Inherits index) d e := by
    intro e
    rw [Graph.mem_walk_iff inside closed, ← step_sources]
    simp
  refine ⟨?_, ?_, ?_⟩
  · rw [asWalk, List.findSome?_isSome_iff]
    simp only [reached, isSome_ownMethod_iff]
  · intro e m found
    rw [asWalk] at found
    obtain ⟨e', member, own⟩ := List.exists_of_findSome?_eq_some found
    obtain ⟨rfl, declared⟩ := ownMethod_eq_some_iff.mp own
    exact ⟨(reached e').mp member, declared⟩
  · intro acyclic
    obtain ⟨l, unfolds, search⟩ :=
      exists_unfolds_plainSearch index method d (acc_of_acyclic acyclic)
    rw [asWalk, search, Graph.walk_eq_eraseDups unfolds inside closed,
      Graph.findSome?_eraseDups]

/-- A handler that inherits its method from a class; class and trait use a
common trait. -/
def mailHandler : Declaration where
  name := "MailHandler"
  kind := .classType
  traits := ["Logs"]
  parent := some "Mailer"

def mailer : Declaration where
  name := "Mailer"
  kind := .classType
  traits := ["Missing", "\\Talks"]
  methods := [{ name := "Handle" }]

/-- The types of the handler, and a class that extends itself. -/
def mailIndex : Index :=
  ({} : Index).registerAll [
    mailHandler,
    { name := "Logs", kind := .traitType, traits := ["Talks"] },
    mailer,
    { name := "Talks", kind := .traitType },
    { name := "Ouroboros", kind := .classType, parent := some "Ouroboros" }]

/-- The number of steps from a type of the handler up to the common trait. -/
def mailRank (d : Declaration) : Nat :=
  if d.name = "MailHandler" then 2 else if d.name = "Talks" then 0 else 1

theorem acyclic_mailHandler : Acyclic (Inherits mailIndex) mailHandler := by
  have ranked : ∀ d ∈ mailHandler :: mailIndex.types.take 4,
      ∀ p ∈ sources mailIndex d,
        p ∈ mailIndex.types.take 4 ∧ mailRank p < mailRank d := by
    decide +kernel
  exact Graph.acyclic_of_rank _ mailRank fun d member p inherits =>
    ranked d member p (mem_sources_iff.mpr inherits)

/-- The handler inherits the method of its class, as without memory. -/
theorem findMethod_complete_mailHandler :
    mailIndex.Registered ∧ mailHandler ∈ mailIndex.types ∧
      (findMethod mailIndex mailHandler "handle").isSome ∧
      findMethod mailIndex mailHandler "handle" =
        plainSearch mailIndex "handle" mailHandler
          (acc_of_acyclic acyclic_mailHandler) := by
  have registered : mailIndex.Registered := Index.Registered.empty.registerAll _
  have listed : mailHandler ∈ mailIndex.types := by decide +kernel
  obtain ⟨found, -, plain⟩ := findMethod_complete registered listed "handle"
  refine ⟨registered, listed, found.mpr ⟨mailer, .single ?_, ?_⟩,
    plain acyclic_mailHandler⟩
  · exact .ofParent rfl (by decide +kernel)
  · refine ⟨_, List.mem_cons_self, ?_⟩
    rw [sameLetters_eq]
    decide +kernel

end BusReference.Php.Hierarchy
