import Mathlib.Data.String.Basic
import BusReference.Definition.Grouping
import BusReference.Proofs.Text.ByteOrder

/-!
# Collecting definitions by domain

Definitions are collected one after another, each into the list of its domain
and kind, behind those whose class is not greater.  After any number of them the
domains stand in ascending order, and each list is what one stable sort by class
makes of the definitions that belong to it.  Nothing is lost or repeated, and
the first pair that the reader refuses ends the collection.
-/

namespace BusReference

/-! ## Lists sorted by class -/

namespace DomainDefinitions

/-- The class of the first definition is not greater than that of the second
one. -/
def byClass (d e : Definition) : Bool := d.commandClass ≤ e.commandClass

theorem byClass_iff {d e : Definition} :
    byClass d e = true ↔ d.commandClass ≤ e.commandClass := by
  rw [byClass, decide_eq_true_iff]

theorem byClass_trans (d e f : Definition)
    (first : byClass d e = true) (second : byClass e f = true) :
    byClass d f = true :=
  byClass_iff.mpr
    (String.le_trans (byClass_iff.mp first) (byClass_iff.mp second))

theorem byClass_total (d e : Definition) :
    (byClass d e || byClass e d) = true := by
  rw [Bool.or_eq_true, byClass_iff, byClass_iff]
  exact String.le_total _ _

/-- The classes are in ascending order. -/
abbrev Sorted (ds : List Definition) : Prop :=
  ds.Pairwise fun d e => byClass d e = true

/-- The definitions of a class. -/
def withClass (name : String) (ds : List Definition) : List Definition :=
  ds.filter (·.commandClass == name)

theorem withClass_cons_self (d : Definition) (ds : List Definition) :
    withClass d.commandClass (d :: ds) = d :: withClass d.commandClass ds :=
  List.filter_cons_of_pos (beq_self_eq_true _)

theorem withClass_cons_of_ne
    {d : Definition} {name : String} (apart : d.commandClass ≠ name)
    (ds : List Definition) : withClass name (d :: ds) = withClass name ds :=
  List.filter_cons_of_neg (by simpa using apart)

theorem withClass_append (name : String) (ds es : List Definition) :
    withClass name (ds ++ es) = withClass name ds ++ withClass name es :=
  List.filter_append ..

theorem Sorted.head_le
    {d e : Definition} {ds : List Definition} (sorted : Sorted (d :: ds))
    (member : e ∈ d :: ds) : d.commandClass ≤ e.commandClass := by
  rcases List.mem_cons.mp member with rfl | later
  · exact String.le_refl _
  · exact byClass_iff.mp (List.rel_of_pairwise_cons sorted later)

/-- A class that is listed in a sorted list is not less than that of its
head. -/
theorem Sorted.head_le_of_withClass_eq
    {d e : Definition} {ds es : List Definition} (sorted : Sorted (d :: ds))
    (same : withClass e.commandClass (d :: ds) =
      withClass e.commandClass (e :: es)) :
    d.commandClass ≤ e.commandClass := by
  have member : e ∈ withClass e.commandClass (d :: ds) := by
    rw [same, withClass_cons_self]
    exact List.mem_cons_self
  exact sorted.head_le (List.mem_filter.mp member).1

/-- A sorted list is determined by the lists of its single classes. -/
theorem eq_of_withClass_eq
    {ds es : List Definition}
    (sortedFirst : Sorted ds) (sortedSecond : Sorted es)
    (same : ∀ name, withClass name ds = withClass name es) : ds = es := by
  induction ds generalizing es with
  | nil =>
      cases es with
      | nil => rfl
      | cons e es =>
          have missing := same e.commandClass
          rw [withClass_cons_self] at missing
          cases missing
  | cons d ds ih =>
      cases es with
      | nil =>
          have missing := same d.commandClass
          rw [withClass_cons_self] at missing
          cases missing
      | cons e es =>
          -- both heads are the first definition of the least class of all
          have least : d.commandClass = e.commandClass := String.le_antisymm
            (sortedFirst.head_le_of_withClass_eq (same _))
            (sortedSecond.head_le_of_withClass_eq (same _).symm)
          have heads := same d.commandClass
          rw [withClass_cons_self, least, withClass_cons_self] at heads
          obtain ⟨rfl, tails⟩ := List.cons.inj heads
          have others : ∀ name, withClass name ds = withClass name es := by
            intro name
            by_cases own : d.commandClass = name
            · rw [← own, tails]
            · have both := same name
              rwa [withClass_cons_of_ne own, withClass_cons_of_ne own] at both
          rw [ih sortedFirst.of_cons sortedSecond.of_cons others]

/-- Sorting keeps the order of the definitions of a class. -/
theorem withClass_mergeSort (name : String) (ds : List Definition) :
    withClass name (ds.mergeSort byClass) = withClass name ds := by
  have sorted : Sorted (withClass name ds) := by
    refine List.pairwise_of_forall_mem_list fun d first e second => ?_
    have left := (List.mem_filter.mp first).2
    have right := (List.mem_filter.mp second).2
    have same : d.commandClass = e.commandClass :=
      (beq_iff_eq.mp left).trans (beq_iff_eq.mp right).symm
    exact byClass_iff.mpr (same ▸ String.le_refl _)
  have kept : (withClass name ds).Sublist (ds.mergeSort byClass) :=
    List.sublist_mergeSort byClass_trans byClass_total sorted
      List.filter_sublist
  have again := kept.filter (·.commandClass == name)
  rw [withClass, List.filter_filter] at again
  refine (List.Sublist.eq_of_length ?_ ?_).symm
  · simpa [withClass] using again
  · exact ((List.mergeSort_perm ds byClass).filter _).length_eq.symm

/-! ## Insertion -/

theorem insertByClass_perm (d : Definition) (es : List Definition) :
    (insertByClass d es).Perm (d :: es) := by
  induction es with
  | nil => exact .refl _
  | cons e es ih =>
      rw [insertByClass]
      split
      · exact .refl _
      · exact (ih.cons e).trans (.swap d e es)

theorem Sorted.insertByClass
    {es : List Definition} (sorted : Sorted es) (d : Definition) :
    Sorted (insertByClass d es) := by
  induction es with
  | nil => exact List.pairwise_singleton _ _
  | cons e es ih =>
      rw [DomainDefinitions.insertByClass]
      split
      · rename_i less
        refine List.pairwise_cons.mpr ⟨fun f member => ?_, sorted⟩
        exact byClass_iff.mpr (String.le_trans (le_of_lt less)
          (sorted.head_le member))
      · rename_i notLess
        refine List.pairwise_cons.mpr ⟨fun f member => ?_, ih sorted.of_cons⟩
        rcases List.mem_cons.mp ((insertByClass_perm d es).mem_iff.mp member)
          with rfl | old
        · exact byClass_iff.mpr (String.not_lt.mp notLess)
        · exact List.rel_of_pairwise_cons sorted old

/-- An inserted definition is the last one of its class. -/
theorem Sorted.withClass_insertByClass
    {es : List Definition} (sorted : Sorted es)
    (d : Definition) (name : String) :
    withClass name (DomainDefinitions.insertByClass d es) =
      withClass name (es ++ [d]) := by
  induction es with
  | nil => rfl
  | cons e es ih =>
      rw [DomainDefinitions.insertByClass]
      split
      · rename_i less
        rw [withClass_append]
        by_cases own : d.commandClass = name
        · have nothing : withClass name (e :: es) = [] := by
            refine List.filter_eq_nil_iff.mpr fun f member same => ?_
            have notLess := String.not_lt.mpr (sorted.head_le member)
            rw [beq_iff_eq.mp same, ← own] at notLess
            exact notLess less
          rw [← own, withClass_cons_self, withClass_cons_self, own, nothing]
          rfl
        · rw [withClass_cons_of_ne own, withClass_cons_of_ne own]
          exact (List.append_nil _).symm
      · rw [List.cons_append]
        by_cases own : e.commandClass = name
        · subst own
          rw [withClass_cons_self, withClass_cons_self, ih sorted.of_cons]
        · rw [withClass_cons_of_ne own, withClass_cons_of_ne own,
            ih sorted.of_cons]

/-- Inserting into a sorted list is adding at its end and sorting again. -/
theorem Sorted.insertByClass_eq
    {es : List Definition} (sorted : Sorted es) (d : Definition) :
    DomainDefinitions.insertByClass d es = (es ++ [d]).mergeSort byClass := by
  refine eq_of_withClass_eq (sorted.insertByClass d)
    (List.pairwise_mergeSort byClass_trans byClass_total _) fun name => ?_
  rw [sorted.withClass_insertByClass, withClass_mergeSort]

/-- What was sorted before need not be sorted again. -/
theorem mergeSort_append_mergeSort (ds es : List Definition) :
    (ds.mergeSort byClass ++ es).mergeSort byClass =
      (ds ++ es).mergeSort byClass := by
  refine eq_of_withClass_eq
    (List.pairwise_mergeSort byClass_trans byClass_total _)
    (List.pairwise_mergeSort byClass_trans byClass_total _) fun name => ?_
  rw [withClass_mergeSort, withClass_append, withClass_mergeSort,
    withClass_mergeSort, withClass_append]

theorem insertByClass_mergeSort (d : Definition) (ds : List Definition) :
    insertByClass d (ds.mergeSort byClass) = (ds ++ [d]).mergeSort byClass := by
  have sorted : Sorted (ds.mergeSort byClass) :=
    List.pairwise_mergeSort byClass_trans byClass_total ds
  rw [sorted.insertByClass_eq, mergeSort_append_mergeSort]

/-- The definitions of a kind. -/
def ofKind (ds : DomainDefinitions) : DefinitionKind → List Definition
  | .command => ds.commands
  | .query => ds.queries

theorem ofKind_add_self (d : Definition) (ds : DomainDefinitions) :
    (ds.add d).ofKind d.kind = insertByClass d (ds.ofKind d.kind) := by
  rw [add]
  cases d.kind <;> rfl

theorem ofKind_add_of_ne
    {d : Definition} {kind : DefinitionKind} (apart : d.kind ≠ kind)
    (ds : DomainDefinitions) : (ds.add d).ofKind kind = ds.ofKind kind := by
  rw [add]
  cases own : d.kind with
  | command =>
      cases kind with
      | command => exact absurd own apart
      | query => rfl
  | query =>
      cases kind with
      | command => rfl
      | query => exact absurd own apart

theorem toList_add_perm (d : Definition) (ds : DomainDefinitions) :
    (ds.add d).toList.Perm (d :: ds.toList) := by
  rw [toList, add]
  cases d.kind with
  | command =>
      exact ((insertByClass_perm d ds.commands).append_left _).trans
        List.perm_middle
  | query => exact (insertByClass_perm d ds.queries).append_right _

end DomainDefinitions

namespace Grouping

open DomainDefinitions (byClass ofKind)

/-! ## Changing a domain -/

/-- The domains stand in ascending order, each of them once. -/
abbrev Ascending (domains : List (String × DomainDefinitions)) : Prop :=
  domains.Pairwise fun first second => first.1 < second.1

theorem Ascending.ne_of_mem
    {first entry : String × DomainDefinitions}
    {domains : List (String × DomainDefinitions)}
    (ascending : Ascending (first :: domains)) (member : entry ∈ domains) :
    entry.1 ≠ first.1 := by
  intro same
  have less := List.rel_of_pairwise_cons ascending member
  rw [same] at less
  exact String.lt_irrefl _ less

theorem Ascending.lt_of_mem
    {name : String} {first entry : String × DomainDefinitions}
    {domains : List (String × DomainDefinitions)}
    (ascending : Ascending (first :: domains)) (less : name < first.1)
    (member : entry ∈ first :: domains) : name < entry.1 := by
  rcases List.mem_cons.mp member with rfl | later
  · exact less
  · exact String.lt_trans less (List.rel_of_pairwise_cons ascending later)

theorem mem_names_change
    {name other : String} {f : DomainDefinitions → DomainDefinitions}
    {domains : List (String × DomainDefinitions)} :
    other ∈ (change name f domains).map (·.1) ↔
      other = name ∨ other ∈ domains.map (·.1) := by
  induction domains with
  | nil => simp [change]
  | cons first domains ih =>
      rw [change]
      split
      · simp
      · split
        · rename_i same
          simp [same]
        · rw [List.map_cons, List.mem_cons, ih, List.map_cons, List.mem_cons]
          exact or_left_comm

/-- A domain that was not changed is as before; the changed one was listed
before with what is changed, or was not listed. -/
theorem mem_change_cases
    {name : String} {f : DomainDefinitions → DomainDefinitions}
    {domains : List (String × DomainDefinitions)}
    (ascending : Ascending domains) {entry : String × DomainDefinitions}
    (member : entry ∈ change name f domains) :
    (entry ∈ domains ∧ entry.1 ≠ name) ∨
      (∃ ds, (name, ds) ∈ domains ∧ entry = (name, f ds)) ∨
      name ∉ domains.map (·.1) ∧ entry = (name, f {}) := by
  induction domains with
  | nil =>
      exact Or.inr (Or.inr ⟨List.not_mem_nil, List.mem_singleton.mp member⟩)
  | cons first domains ih =>
      rw [change] at member
      split at member
      · rename_i less
        have apart : ∀ e ∈ first :: domains, e.1 ≠ name := by
          intro e listed same
          have greater := ascending.lt_of_mem less listed
          rw [same] at greater
          exact String.lt_irrefl _ greater
        rcases List.mem_cons.mp member with rfl | old
        · refine Or.inr (Or.inr ⟨fun listed => ?_, rfl⟩)
          obtain ⟨e, inside, same⟩ := List.mem_map.mp listed
          exact apart e inside same
        · exact Or.inl ⟨old, apart entry old⟩
      · split at member
        · rename_i same
          subst same
          rcases List.mem_cons.mp member with rfl | old
          · exact Or.inr (Or.inl ⟨first.2, List.mem_cons_self, rfl⟩)
          · exact Or.inl
              ⟨List.mem_cons_of_mem _ old, ascending.ne_of_mem old⟩
        · rename_i apart
          rcases List.mem_cons.mp member with rfl | later
          · exact Or.inl ⟨List.mem_cons_self, Ne.symm apart⟩
          · rcases ih ascending.of_cons later with
              ⟨old, other⟩ | ⟨ds, listed, changed⟩ | ⟨absent, new⟩
            · exact Or.inl ⟨List.mem_cons_of_mem _ old, other⟩
            · exact Or.inr (Or.inl
                ⟨ds, List.mem_cons_of_mem _ listed, changed⟩)
            · refine Or.inr (Or.inr ⟨fun listed => ?_, new⟩)
              rcases List.mem_cons.mp listed with same | inside
              · exact apart same
              · exact absent inside

theorem Ascending.change
    {domains : List (String × DomainDefinitions)}
    (ascending : Ascending domains)
    (name : String) (f : DomainDefinitions → DomainDefinitions) :
    Ascending (change name f domains) := by
  induction domains with
  | nil => exact List.pairwise_singleton _ _
  | cons first domains ih =>
      rw [Grouping.change]
      split
      · rename_i less
        exact List.pairwise_cons.mpr
          ⟨fun entry member => ascending.lt_of_mem less member, ascending⟩
      · split
        · exact List.pairwise_cons.mpr
            ⟨fun entry member => List.rel_of_pairwise_cons ascending member,
              ascending.of_cons⟩
        · rename_i notLess apart
          refine List.pairwise_cons.mpr
            ⟨fun entry member => ?_, ih ascending.of_cons⟩
          rcases mem_names_change.mp (List.mem_map_of_mem member) with
            same | old
          · rw [same]
            exact lt_of_le_of_ne (String.not_lt.mp notLess) (Ne.symm apart)
          · obtain ⟨e, listed, same⟩ := List.mem_map.mp old
            rw [← same]
            exact List.rel_of_pairwise_cons ascending listed

/-- What adds a definition to a domain adds it to the whole. -/
theorem change_perm
    {name : String} {f : DomainDefinitions → DomainDefinitions} {d : Definition}
    (adds : ∀ ds, (f ds).toList.Perm (d :: ds.toList))
    (domains : List (String × DomainDefinitions)) :
    ((change name f domains).flatMap fun entry => entry.2.toList).Perm
      (d :: domains.flatMap fun entry => entry.2.toList) := by
  induction domains with
  | nil =>
      rw [change, List.flatMap_cons]
      exact (adds {}).append_right _
  | cons first domains ih =>
      rw [change]
      split
      · exact (adds {}).append_right _
      · split
        · exact (adds first.2).append_right _
        · exact (ih.append_left first.2.toList).trans List.perm_middle

/-! ## What was collected -/

/-- The definitions of a domain and a kind. -/
def filed (parsed : List Definition) (domain : String) (kind : DefinitionKind) :
    List Definition :=
  parsed.filter fun d => d.domain == domain && d.kind == kind

/--
The grouping holds the given definitions: its domains are those of the
definitions in ascending order, and each of its lists is what a stable sort by
class makes of the definitions of the domain and the kind.
-/
structure Holds (grouping : Grouping) (parsed : List Definition) : Prop where
  ascending : Ascending grouping.domains
  domains : ∀ name, name ∈ grouping.domains.map (·.1) ↔
    ∃ d ∈ parsed, d.domain = name
  lists : ∀ entry ∈ grouping.domains, ∀ kind,
    entry.2.ofKind kind = (filed parsed entry.1 kind).mergeSort byClass

theorem holds_empty : Holds {} [] where
  ascending := .nil
  domains name := by simp
  lists entry member := by cases member

theorem filed_append_self (parsed : List Definition) (d : Definition) :
    filed (parsed ++ [d]) d.domain d.kind =
      filed parsed d.domain d.kind ++ [d] := by
  simp [filed]

theorem filed_append_of_ne
    (parsed : List Definition) {d : Definition} {domain : String}
    {kind : DefinitionKind} (apart : ¬ (d.domain = domain ∧ d.kind = kind)) :
    filed (parsed ++ [d]) domain kind = filed parsed domain kind := by
  simpa [filed] using apart

/-- The lists of a domain after a definition was added to it. -/
theorem ofKind_add_eq
    {parsed : List Definition} {d : Definition} {ds : DomainDefinitions}
    (before : ∀ kind,
      ds.ofKind kind = (filed parsed d.domain kind).mergeSort byClass)
    (kind : DefinitionKind) :
    (ds.add d).ofKind kind =
      (filed (parsed ++ [d]) d.domain kind).mergeSort byClass := by
  by_cases own : d.kind = kind
  · subst own
    rw [DomainDefinitions.ofKind_add_self, before,
      DomainDefinitions.insertByClass_mergeSort, filed_append_self]
  · rw [DomainDefinitions.ofKind_add_of_ne own, before,
      filed_append_of_ne _ fun both => own both.2]

theorem Holds.add
    {grouping : Grouping} {parsed : List Definition}
    (holds : grouping.Holds parsed) (d : Definition) :
    (grouping.add d).Holds (parsed ++ [d]) where
  ascending := holds.ascending.change _ _
  domains name := by
    rw [Grouping.add, mem_names_change, holds.domains]
    constructor
    · rintro (rfl | ⟨e, member, same⟩)
      · exact ⟨d, by simp, rfl⟩
      · exact ⟨e, List.mem_append_left _ member, same⟩
    · rintro ⟨e, member, same⟩
      rcases List.mem_append.mp member with old | new
      · exact Or.inr ⟨e, old, same⟩
      · rw [List.mem_singleton.mp new] at same
        exact Or.inl same.symm
  lists entry member kind := by
    rcases mem_change_cases holds.ascending member with
      ⟨old, apart⟩ | ⟨ds, listed, rfl⟩ | ⟨absent, rfl⟩
    · rw [holds.lists entry old, filed_append_of_ne _ fun both =>
        apart both.1.symm]
    · exact ofKind_add_eq (holds.lists _ listed) kind
    · refine ofKind_add_eq (fun kind => ?_) kind
      -- a domain that is not listed has no definitions so far
      have nothing : filed parsed d.domain kind = [] := by
        refine List.filter_eq_nil_iff.mpr fun e member both => ?_
        have same := (Bool.and_eq_true_iff.mp both).1
        exact absent ((holds.domains _).mpr ⟨e, member, beq_iff_eq.mp same⟩)
      rw [nothing, List.mergeSort_nil]
      cases kind <;> rfl

theorem toList_add_perm (grouping : Grouping) (d : Definition) :
    (grouping.add d).toList.Perm (d :: grouping.toList) :=
  change_perm (DomainDefinitions.toList_add_perm d) grouping.domains

/-! ## A whole collection -/

section Collection

variable {ε : Type} {reader : String → String → Except ε Definition}

/-- Of the pairs the reader refuses one with the given error, and none before
it. -/
def FailsFirst (reader : String → String → Except ε Definition)
    (pairs : List (String × String)) (error : ε) : Prop :=
  ∃ before handler command after,
    pairs = before ++ (handler, command) :: after ∧
      (∀ pair ∈ before, ∃ d, reader pair.1 pair.2 = .ok d) ∧
      reader handler command = .error error

theorem FailsFirst.exists_refused
    {pairs : List (String × String)} {error : ε}
    (fails : FailsFirst reader pairs error) :
    ∃ pair ∈ pairs, ∃ error, reader pair.1 pair.2 = .error error := by
  obtain ⟨before, handler, command, after, rfl, -, refused⟩ := fails
  exact ⟨(handler, command), List.mem_append_right _ List.mem_cons_self, error,
    refused⟩

theorem failsFirst_cons_of_error
    {handler command : String} {error : ε}
    (refused : reader handler command = .error error)
    (pairs : List (String × String)) (other : ε) :
    FailsFirst reader ((handler, command) :: pairs) other ↔ error = other := by
  constructor
  · rintro ⟨before, _, _, after, split, accepted, failed⟩
    cases before with
    | nil =>
        cases split
        exact Except.error.inj (refused.symm.trans failed)
    | cons pair before =>
        cases split
        obtain ⟨d, read⟩ := accepted _ List.mem_cons_self
        cases refused.symm.trans read
  · rintro rfl
    exact ⟨[], handler, command, pairs, rfl, by simp, refused⟩

theorem failsFirst_cons_of_ok
    {handler command : String} {d : Definition}
    (read : reader handler command = .ok d)
    (pairs : List (String × String)) (error : ε) :
    FailsFirst reader ((handler, command) :: pairs) error ↔
      FailsFirst reader pairs error := by
  constructor
  · rintro ⟨before, _, _, after, split, accepted, failed⟩
    cases before with
    | nil =>
        cases split
        cases read.symm.trans failed
    | cons pair before =>
        cases split
        exact ⟨before, _, _, after, rfl,
          fun pair member => accepted pair (List.mem_cons_of_mem _ member),
          failed⟩
  · rintro ⟨before, _, _, after, rfl, accepted, failed⟩
    refine ⟨(handler, command) :: before, _, _, after, rfl, ?_, failed⟩
    intro pair member
    rcases List.mem_cons.mp member with rfl | later
    · exact ⟨d, read⟩
    · exact accepted pair later

theorem addAll_eq_error_iff
    (grouping : Grouping) (pairs : List (String × String)) (error : ε) :
    grouping.addAll reader pairs = .error error ↔
      FailsFirst reader pairs error := by
  induction pairs generalizing grouping with
  | nil =>
      constructor
      · intro failed
        cases failed
      · rintro ⟨before, _, _, after, split, _⟩
        cases before <;> cases split
  | cons pair pairs ih =>
      obtain ⟨handler, command⟩ := pair
      rw [addAll]
      cases read : reader handler command with
      | error refused =>
          rw [failsFirst_cons_of_error read]
          exact Except.error.injEq refused error ▸ .rfl
      | ok d => rw [failsFirst_cons_of_ok read, ih]

/-- What a grouping holds after more pairs were read into it. -/
theorem exists_parsed_of_addAll
    {grouping result : Grouping} {known : List Definition}
    (holds : grouping.Holds known) (permuted : grouping.toList.Perm known)
    {pairs : List (String × String)}
    (done : grouping.addAll reader pairs = .ok result) :
    ∃ parsed, pairs.map (fun pair => reader pair.1 pair.2) = parsed.map .ok ∧
      result.Holds (known ++ parsed) ∧
      result.toList.Perm (known ++ parsed) := by
  induction pairs generalizing grouping known with
  | nil =>
      cases done
      exact ⟨[], rfl, by rwa [List.append_nil], by rwa [List.append_nil]⟩
  | cons pair pairs ih =>
      obtain ⟨handler, command⟩ := pair
      rw [addAll] at done
      cases read : reader handler command with
      | error refused =>
          rw [read] at done
          cases done
      | ok d =>
          rw [read] at done
          have added : (grouping.add d).toList.Perm (known ++ [d]) :=
            ((toList_add_perm grouping d).trans (permuted.cons d)).trans
              (List.perm_append_singleton d known).symm
          obtain ⟨parsed, entries, held, listed⟩ := ih (holds.add d) added done
          rw [List.append_assoc] at held listed
          refine ⟨d :: parsed, ?_, held, listed⟩
          rw [List.map_cons, List.map_cons, entries, read]

/--
A collection fails exactly if the reader refuses a pair, with the error of the
first one that it refuses.  Otherwise the grouping holds what was read, in the
order of the map: the domains are those that occur, in the byte order of their
names, and each list is a stable sort by class of what belongs to it.  Domain
after domain, the queries before the commands, this lists what was read in
another order.
-/
theorem collect_complete
    (reader : String → String → Except ε Definition) (handlers : HandlerMap) :
    ((∃ error, collect reader handlers = .error error) ↔
        ∃ pair ∈ handlers.entries, ∃ error,
          reader pair.1 pair.2 = .error error) ∧
      (∀ error, collect reader handlers = .error error ↔
        FailsFirst reader handlers.entries error) ∧
      ∀ grouping, collect reader handlers = .ok grouping →
        ∃ parsed,
          handlers.entries.map (fun pair => reader pair.1 pair.2) =
              parsed.map .ok ∧
            grouping.Holds parsed ∧
            (grouping.domains.map fun entry => Text.bytes entry.1).Pairwise
              (· < ·) ∧
            collectAll reader handlers =
              .ok (grouping.domains.flatMap fun entry =>
                entry.2.queries ++ entry.2.commands) ∧
            (grouping.domains.flatMap fun entry =>
              entry.2.queries ++ entry.2.commands).Perm parsed := by
  have failure : ∀ error, collect reader handlers = .error error ↔
      FailsFirst reader handlers.entries error :=
    addAll_eq_error_iff {} handlers.entries
  refine ⟨?_, failure, fun grouping done => ?_⟩
  · constructor
    · rintro ⟨error, failed⟩
      exact ((failure error).mp failed).exists_refused
    · rintro ⟨pair, member, error, refused⟩
      cases done : collect reader handlers with
      | error first => exact ⟨first, rfl⟩
      | ok grouping =>
          obtain ⟨parsed, entries, -⟩ :=
            exists_parsed_of_addAll holds_empty (.refl _) done
          have read := List.mem_map_of_mem
            (f := fun pair => reader pair.1 pair.2) member
          rw [entries, refused] at read
          obtain ⟨d, -, apart⟩ := List.mem_map.mp read
          cases apart
  · obtain ⟨parsed, entries, holds, permuted⟩ :=
      exists_parsed_of_addAll holds_empty (.refl _) done
    have inBytes :
        (grouping.domains.map fun entry => Text.bytes entry.1).Pairwise
          (· < ·) :=
      List.pairwise_map.mpr
        (holds.ascending.imp fun less => Text.lt_iff_bytes_lt.mp less)
    have listed : collectAll reader handlers = .ok grouping.toList := by
      rw [collectAll, done]
      rfl
    exact ⟨parsed, entries, holds, inBytes, listed, permuted⟩

end Collection

/-- What is known of a command by its name and by its handler alone. -/
def outline (handler command : String) : Definition where
  kind := .ofClass command
  domain := if Text.Pieces.occurs "Tax".toList command.toList then "Tax" else ""
  handlerClass := handler
  commandClass := command
  constructorParameters := []
  description := ""
  returnType := "void"
  handlerInterfaces := []
  simpleClassName := Php.shortName command
  slug := ""

/-- Knows every command but one. -/
def outlineUnlessMissing (handler command : String) : Except Error Definition :=
  if command = "Missing" then .error (.unknownType command)
  else .ok (outline handler command)

/-- Two handlers take the same command, and others come in between. -/
def taxHandlers : HandlerMap where
  entries := [
    ("Second", "Tax\\Command\\Add"), ("Other", "Mail"),
    ("First", "Tax\\Command\\Add"), ("Query", "Tax\\Rate")]

/-- The definitions of the handlers, those of one class in the order of the
map. -/
def taxGrouping : Grouping where
  domains := [
    ("", { queries := [outline "Other" "Mail"] }),
    ("Tax", {
      commands := [
        outline "Second" "Tax\\Command\\Add",
        outline "First" "Tax\\Command\\Add"]
      queries := [outline "Query" "Tax\\Rate"] })]

/-- The handlers of one command stay in the order of the map; a missing command
ends the collection. -/
theorem collect_complete_taxHandlers :
    collect outlineUnlessMissing taxHandlers = .ok taxGrouping ∧
      (∃ parsed, taxGrouping.Holds parsed ∧ taxGrouping.toList.Perm parsed) ∧
      ∃ error,
        collect outlineUnlessMissing
            ⟨("Late", "Missing") :: taxHandlers.entries⟩ =
          .error error := by
  have done : collect outlineUnlessMissing taxHandlers = .ok taxGrouping :=
    rfl
  obtain ⟨parsed, -, holds, -, -, permuted⟩ :=
    (collect_complete outlineUnlessMissing taxHandlers).2.2 taxGrouping done
  exact ⟨done, ⟨parsed, holds, permuted⟩, (collect_complete _ _).1.mpr
    ⟨_, List.mem_cons_self, _, rfl⟩⟩

end Grouping

end BusReference
