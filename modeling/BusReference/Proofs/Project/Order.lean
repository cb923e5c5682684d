import BusReference.Proofs.Definition.Order
import BusReference.Proofs.Printing.Distinct
import BusReference.Proofs.Project.Failure

/-!
# Independence of the order of registration

Two handler maps with the same pairs in another order give the same
documentation, provided that no two of their commands are the same class.  The
names of the pairs may differ in leading backslashes, which do not count.
Whatever is made of a project, the listing as well as the pages, is made of its
grouping, so that it suffices to compare groupings.
-/

namespace BusReference

open BusReference.Php (Index plainName)

/-- A printing of a project whose pairs cannot all be read fails and leaves all
files as they are. -/
theorem Project.print_of_grouping_error
    {p : Project} {error : Error} (failed : p.grouping = .error error)
    (docs : DocsSettings) (destination : String) (force : Bool)
    (fs : Files.FileSystem) :
    ∃ reason,
      p.print docs destination force fs = .done ⟨fs, .error reason⟩ := by
  rcases print_cases p docs destination force fs with
    ⟨reason, ended, -⟩ | ⟨-, grouping, grouped, -⟩
  · exact ⟨reason, ended⟩
  · rw [failed] at grouped
    cases grouped

/-- A printing depends on the project by way of its grouping alone. -/
theorem Project.print_eq_of_grouping_eq
    {p q : Project} (same : p.grouping = q.grouping)
    (docs : DocsSettings) (destination : String) (force : Bool)
    (fs : Files.FileSystem) :
    p.print docs destination force fs = q.print docs destination force fs := by
  rw [print, print, same]

section Order

variable {first second : HandlerMap}

/-- Reading the definitions of two handler maps fails for both or gives the
same grouping. -/
theorem Definition.collect_readWith_agree
    (index : Index) (domainOf : String → String)
    (permuted : first.entries.Perm second.entries)
    (distinct : (first.entries.map fun pair => plainName pair.2).Nodup) :
    Agree (Grouping.collect (readWith index domainOf) first)
      (Grouping.collect (readWith index domainOf) second) :=
  Grouping.collect_agree_of_perm
    (fun _ _ _ read => (isNamedAfter_of_readWith read).commandClass) permuted
    distinct

/--
The documentation does not depend on the order of the handlers, if the classes
of their commands are distinct up to leading backslashes.  For whatever way to
find the domain of a class, the definitions of both maps cannot be read, or
they have the same grouping and the same listing.  So have the projects of a
domain pattern; they ask the same question before a printing, and after the
same answer the outcome is the same and so are all files.  If the definitions
cannot be read, then both printings fail without a question and leave all files.
-/
theorem Project.documentation_of_perm
    (index : Index) (domainOf : String → String)
    (permuted : first.entries.Perm second.entries)
    (distinct : (first.entries.map fun pair => plainName pair.2).Nodup) :
    let reader := Definition.readWith index domainOf
    Agree (Grouping.collect reader first) (Grouping.collect reader second) ∧
      Agree ((Grouping.collectAll reader first).map Listing.text)
        ((Grouping.collectAll reader second).map Listing.text) ∧
      ∀ pattern : DomainPattern,
        let p : Project := ⟨index, pattern, first⟩
        let q : Project := ⟨index, pattern, second⟩
        Agree p.grouping q.grouping ∧ Agree p.listing q.listing ∧
          ∀ docs destination force fs,
            (∀ grouping, p.grouping = .ok grouping →
              p.print docs destination force fs =
                q.print docs destination force fs) ∧
            (∀ error, p.grouping = .error error →
              ∃ reason other,
                p.print docs destination force fs =
                    .done ⟨fs, .error reason⟩ ∧
                  q.print docs destination force fs =
                    .done ⟨fs, .error other⟩) := by
  have collected (domainOf : String → String) :=
    Definition.collect_readWith_agree index domainOf permuted distinct
  have listed (domainOf : String → String) :=
    ((collected domainOf).map Grouping.toList).map Listing.text
  refine ⟨collected domainOf, listed domainOf, fun pattern => ?_⟩
  refine ⟨collected pattern.domain, listed pattern.domain, ?_⟩
  intro docs destination force fs
  have agree : Agree (Project.mk index pattern first).grouping
      (Project.mk index pattern second).grouping := collected pattern.domain
  constructor
  · intro grouping grouped
    exact print_eq_of_grouping_eq (grouped.trans (agree.eq_ok grouped).symm)
      docs destination force fs
  · intro error failed
    obtain ⟨other, otherFailed⟩ := agree.exists_error failed
    obtain ⟨reason, ended⟩ :=
      print_of_grouping_error failed docs destination force fs
    obtain ⟨otherReason, otherEnded⟩ :=
      print_of_grouping_error otherFailed docs destination force fs
    exact ⟨reason, otherReason, ended, otherEnded⟩

end Order

/-- Two handlers in either order give the same pages. -/
theorem Project.documentation_of_perm_tax :
    let p : Project := ⟨Printing.taxIndex, .testFixtures,
      Printing.taxHandlers [Printing.addTax, Printing.getTax]⟩
    let q : Project := ⟨Printing.taxIndex, .testFixtures,
      Printing.taxHandlers [Printing.getTax, Printing.addTax]⟩
    p.handlers ≠ q.handlers ∧
      (∃ grouping, p.grouping = .ok grouping ∧ q.grouping = .ok grouping) ∧
      ∀ docs destination force fs,
        p.print docs destination force fs =
          q.print docs destination force fs := by
  intro p q
  have grouped : p.grouping = .ok (Printing.taxGrouping
      [Printing.addTax, Printing.getTax]) :=
    Printing.grouped_tax (List.Subset.refl _)
  obtain ⟨-, -, ofPattern⟩ :=
    documentation_of_perm Printing.taxIndex (fun _ => "")
      (show p.handlers.entries.Perm q.handlers.entries from .swap _ _ _)
      (by decide +kernel)
  obtain ⟨agree, -, printed⟩ := ofPattern .testFixtures
  refine ⟨by decide +kernel, ?_, fun docs destination force fs =>
    (printed docs destination force fs).1 _ grouped⟩
  exact ⟨_, grouped, agree.eq_ok grouped⟩

end BusReference
