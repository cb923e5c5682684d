import Mathlib.Data.List.Nodup
import Mathlib.Data.List.Perm.Basic
import BusReference.Proofs.Definition.Collecting

/-!
# Groupings and the order of the handlers

A grouping is determined by the definitions that it holds, in whatever order
they were read, if no two of them have the same class: its domains stand in
strictly ascending order, and a list without two definitions of one class can be
sorted by class in one way only.  A pair that the reader refuses is refused in
either order; only the refusal that comes first depends on it.
-/

namespace BusReference

/-- Two computations both fail, each for a reason of its own, or have the same
result. -/
inductive Agree {ε α : Type} : Except ε α → Except ε α → Prop
  | failed (first second : ε) : Agree (.error first) (.error second)
  | done (result : α) : Agree (.ok result) (.ok result)

theorem Agree.eq_ok
    {ε α : Type} {first second : Except ε α} {result : α}
    (agree : Agree first second) (done : first = .ok result) :
    second = .ok result := by
  cases agree with
  | failed => cases done
  | done => exact done

theorem Agree.exists_error
    {ε α : Type} {first second : Except ε α} {error : ε}
    (agree : Agree first second) (failed : first = .error error) :
    ∃ other, second = .error other := by
  cases agree with
  | failed first second => exact ⟨second, rfl⟩
  | done => cases failed

theorem Agree.map
    {ε α β : Type} {first second : Except ε α} (agree : Agree first second)
    (f : α → β) : Agree (first.map f) (second.map f) := by
  cases agree with
  | failed first second => exact .failed first second
  | done result => exact .done (f result)

namespace DomainDefinitions

/-- No two definitions have the same class. -/
abbrev DistinctClasses (ds : List Definition) : Prop :=
  (ds.map (·.commandClass)).Nodup

/-- What belongs to a domain are its commands and its queries. -/
theorem eq_of_ofKind_eq
    {ds es : DomainDefinitions} (same : ∀ kind, ds.ofKind kind = es.ofKind kind) :
    ds = es := by
  have commands : ds.commands = es.commands := same .command
  have queries : ds.queries = es.queries := same .query
  cases ds
  cases es
  exact congrArg₂ DomainDefinitions.mk commands queries

/-- Without two definitions of one class the sorted list does not depend on
the order before. -/
theorem mergeSort_eq_of_perm
    {ds es : List Definition} (permuted : ds.Perm es)
    (distinct : DistinctClasses ds) :
    ds.mergeSort byClass = es.mergeSort byClass := by
  have sorted (ds : List Definition) : Sorted (ds.mergeSort byClass) :=
    List.pairwise_mergeSort byClass_trans byClass_total ds
  have same : (ds.mergeSort byClass).Perm (es.mergeSort byClass) :=
    ((List.mergeSort_perm ds byClass).trans permuted).trans
      (List.mergeSort_perm es byClass).symm
  refine same.eq_of_pairwise ?_ (sorted ds) (sorted es)
  intro d e first second less notLess
  refine List.inj_on_of_nodup_map distinct (List.mem_mergeSort.mp first)
    (permuted.mem_iff.mpr (List.mem_mergeSort.mp second)) ?_
  exact String.le_antisymm (byClass_iff.mp less) (byClass_iff.mp notLess)

end DomainDefinitions

namespace Grouping

open DomainDefinitions (DistinctClasses byClass ofKind)

theorem filed_perm
    {parsed others : List Definition} (permuted : parsed.Perm others)
    (domain : String) (kind : DefinitionKind) :
    (filed parsed domain kind).Perm (filed others domain kind) :=
  permuted.filter _

/-- What is listed in a grouping, said by the definitions that it holds. -/
theorem Holds.mem_domains_iff
    {grouping : Grouping} {parsed : List Definition}
    (holds : grouping.Holds parsed) {entry : String × DomainDefinitions} :
    entry ∈ grouping.domains ↔
      (∃ d ∈ parsed, d.domain = entry.1) ∧
        ∀ kind, entry.2.ofKind kind =
          (filed parsed entry.1 kind).mergeSort byClass := by
  constructor
  · intro member
    exact ⟨(holds.domains entry.1).mp (List.mem_map_of_mem member),
      holds.lists entry member⟩
  · rintro ⟨occurs, lists⟩
    obtain ⟨listed, member, name⟩ :=
      List.mem_map.mp ((holds.domains entry.1).mpr occurs)
    have same : ∀ kind, entry.2.ofKind kind = listed.2.ofKind kind := by
      intro kind
      rw [lists, holds.lists listed member, name]
    have whole : entry = listed :=
      Prod.ext name.symm (DomainDefinitions.eq_of_ofKind_eq same)
    rwa [whole]

/--
A grouping is determined by the definitions that it holds, whatever their
order, if no two of them have the same class.
-/
theorem Holds.eq_of_perm
    {first second : Grouping} {parsed others : List Definition}
    (holdsFirst : first.Holds parsed) (holdsSecond : second.Holds others)
    (permuted : parsed.Perm others) (distinct : DistinctClasses parsed) :
    first = second := by
  have sorted (domain : String) (kind : DefinitionKind) :
      (filed parsed domain kind).mergeSort byClass =
        (filed others domain kind).mergeSort byClass :=
    DomainDefinitions.mergeSort_eq_of_perm (filed_perm permuted domain kind)
      (distinct.sublist (List.filter_sublist.map _))
  have listed : ∀ entry, entry ∈ first.domains ↔ entry ∈ second.domains := by
    intro entry
    rw [holdsFirst.mem_domains_iff, holdsSecond.mem_domains_iff]
    simp only [permuted.mem_iff, sorted]
  have apart {grouping : Grouping} (ascending : Ascending grouping.domains) :
      grouping.domains.Nodup := by
    refine ascending.imp fun {entry other} less same => ?_
    rw [same] at less
    exact String.lt_irrefl _ less
  have same : first.domains.Perm second.domains :=
    (List.perm_ext_iff_of_nodup (apart holdsFirst.ascending)
      (apart holdsSecond.ascending)).mpr listed
  have domains : first.domains = second.domains := by
    refine same.eq_of_pairwise ?_ holdsFirst.ascending holdsSecond.ascending
    intro entry other _ _ less greater
    exact absurd (String.lt_trans less greater) (String.lt_irrefl _)
  cases first
  cases second
  exact congrArg Grouping.mk domains

section Collection

variable
    {ε : Type} {reader : String → String → Except ε Definition}
    {first second : HandlerMap}

theorem exists_refused_of_collect
    {error : ε} (failed : collect reader first = .error error) :
    ∃ pair ∈ first.entries, ∃ error, reader pair.1 pair.2 = .error error :=
  ((addAll_eq_error_iff {} first.entries error).mp failed).exists_refused

/-- A collection that succeeds holds what was read of all pairs. -/
theorem exists_holds_of_collect
    {grouping : Grouping} (done : collect reader first = .ok grouping) :
    ∃ parsed,
      first.entries.map (fun pair => reader pair.1 pair.2) =
          parsed.map .ok ∧
        grouping.Holds parsed := by
  obtain ⟨parsed, entries, holds, -⟩ :=
    exists_parsed_of_addAll holds_empty (.refl _) done
  exact ⟨parsed, entries, holds⟩

theorem map_commandClass_eq
    {classOf : String → String}
    (named : ∀ handler command d, reader handler command = .ok d →
      d.commandClass = classOf command)
    {pairs : List (String × String)} {parsed : List Definition}
    (read : pairs.map (fun pair => reader pair.1 pair.2) = parsed.map .ok) :
    parsed.map (·.commandClass) = pairs.map fun pair => classOf pair.2 := by
  induction pairs generalizing parsed with
  | nil =>
      rw [List.map_eq_nil_iff.mp read.symm]
      rfl
  | cons pair pairs ih =>
      obtain ⟨d, parsed, rfl, first, rest⟩ := List.map_eq_cons_iff.mp read.symm
      rw [List.map_cons, List.map_cons, ih rest.symm,
        named _ _ _ first.symm]

/-- What succeeds in one order does not fail in another. -/
theorem collect_ne_error_of_perm
    {grouping : Grouping} (permuted : first.entries.Perm second.entries)
    (done : collect reader first = .ok grouping) (error : ε) :
    collect reader second ≠ .error error := by
  intro failed
  obtain ⟨pair, member, refusal, refused⟩ := exists_refused_of_collect failed
  obtain ⟨parsed, entries, -⟩ := exists_holds_of_collect done
  have read := List.mem_map_of_mem
    (f := fun pair => reader pair.1 pair.2) (permuted.mem_iff.mpr member)
  rw [entries, refused] at read
  obtain ⟨d, -, apart⟩ := List.mem_map.mp read
  cases apart

/--
Collecting in two orders fails in both or gives the same grouping, if each
definition that is read has the class that the pair names and these classes
are distinct.
-/
theorem collect_agree_of_perm
    {classOf : String → String}
    (named : ∀ handler command d, reader handler command = .ok d →
      d.commandClass = classOf command)
    (permuted : first.entries.Perm second.entries)
    (distinct : (first.entries.map fun pair => classOf pair.2).Nodup) :
    Agree (collect reader first) (collect reader second) := by
  rcases atFirst : collect reader first with error | grouping <;>
    rcases atSecond : collect reader second with other | grouping'
  · exact .failed error other
  · exact absurd atFirst (collect_ne_error_of_perm permuted.symm atSecond _)
  · exact absurd atSecond (collect_ne_error_of_perm permuted atFirst _)
  · obtain ⟨parsed, entries, holds⟩ := exists_holds_of_collect atFirst
    obtain ⟨others, entries', holds'⟩ := exists_holds_of_collect atSecond
    have read : parsed.Perm others := by
      refine (List.map_perm_map_iff
        (f := (Except.ok : Definition → Except ε Definition))
        fun _ _ => Except.ok.inj).mp ?_
      rw [← entries, ← entries']
      exact permuted.map _
    have classes : DomainDefinitions.DistinctClasses parsed := by
      rw [DomainDefinitions.DistinctClasses, map_commandClass_eq named entries]
      exact distinct
    rw [holds.eq_of_perm holds' read classes]
    exact .done grouping'

end Collection

end Grouping

end BusReference
