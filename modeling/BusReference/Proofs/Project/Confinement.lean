import BusReference.Proofs.Printing.Distinct
import BusReference.Proofs.Project.Failure

/-!
# Staying within the destination

Whatever a printing of a scanned project does to the files, it does at the
destination or below it, except for directories that it creates on the way to
it; and every path that it reports is a path to something strictly below.  No
text of a source file or a pattern can lead elsewhere: the names of scanned
types have neither slashes nor dots, and all that a path is made of is a stretch
of such a name in small letters.

A change of the files is described by the nodes before and after it, and what
one step may change is closed under sequences of steps.
-/

namespace BusReference

open BusReference.Files
open BusReference.Files.Path (IsDirect IsNamed parent way)

/-! ## Changes below a place -/

namespace Files.FileSystem

/--
What differs stands at the target or below it, or is a directory on the way to
the target where nothing was before.
-/
def ChangesBelow (before after : FileSystem) (target : Location) : Prop :=
  ∀ place,
    after.get? place = before.get? place ∨
      target <+: place ∨
      before.get? place = none ∧
        after.get? place = some .directory ∧ place <+: target

namespace ChangesBelow

variable {before middle after : FileSystem} {target : Location}

theorem refl (fs : FileSystem) (target : Location) :
    ChangesBelow fs fs target :=
  fun _ => Or.inl rfl

theorem trans
    (first : ChangesBelow before middle target)
    (second : ChangesBelow middle after target) :
    ChangesBelow before after target := by
  intro place
  rcases first place with same | below | ⟨absent, added, onWay⟩
  · rw [← same]
    exact second place
  · exact Or.inr (Or.inl below)
  · rcases second place with same | below | ⟨absentLater, -, -⟩
    · exact Or.inr (Or.inr ⟨absent, same.trans added, onWay⟩)
    · exact Or.inr (Or.inl below)
    · rw [added] at absentLater
      cases absentLater

end ChangesBelow

section Steps

variable {before after fs : FileSystem} {target place : Location}

/-- Of the directories on the way to a place below the target each is on the
way to the target or below it. -/
theorem GainsDirectories.changesBelow
    (gains : GainsDirectories before after place)
    (below : target <+: place) :
    ChangesBelow before after target := by
  intro other
  rcases gains other with same | ⟨absent, added, onWay⟩
  · exact Or.inl same
  · rcases List.prefix_or_prefix_of_prefix onWay below with above | inside
    · exact Or.inr (Or.inr ⟨absent, added, above⟩)
    · exact Or.inr (Or.inl inside)

theorem changesBelow_put
    (notRoot : place ≠ []) (below : target <+: place) (node : Node) :
    ChangesBelow fs (fs.put place node) target := by
  intro other
  by_cases here : other = place
  · exact Or.inr (Or.inl (here ▸ below))
  · exact Or.inl (by rw [get?_put notRoot, if_neg here])

theorem changesBelow_erase (fs : FileSystem) (target : Location) :
    ChangesBelow fs (fs.erase target) target := by
  intro other
  by_cases below : target <+: other
  · exact Or.inr (Or.inl below)
  · exact Or.inl (by rw [get?_erase, if_neg fun both => below both.2])

/-- Writing a file strictly below the target changes nothing else. -/
theorem IsTree.changesBelow_write
    (tree : fs.IsTree) {path : String} (named : IsNamed path)
    (below : target <+: way (parent path)) (text : String) :
    ChangesBelow fs (fs.write path text).1 target := by
  obtain ⟨middle, -, gains, ⟨error, failed⟩ | ⟨-, -, written⟩⟩ :=
    tree.write_cases named text
  · rw [failed]
    exact gains.changesBelow below
  · rw [written]
    have inside : target <+: way path :=
      named.way_eq ▸ below.trans (List.prefix_append _ _)
    exact (gains.changesBelow below).trans
      (changesBelow_put named.way_ne_nil inside _)

theorem changesBelow_removeTree
    (fs : FileSystem) {path : String} (direct : IsDirect path) :
    ChangesBelow fs (fs.removeTree path).1 (way path) := by
  rcases fs.removeTree_cases direct with
    ⟨error, failed⟩ | ⟨nothing, -⟩ | ⟨erased, -⟩
  · rw [failed]
    exact .refl fs _
  · rw [nothing]
    exact .refl fs _
  · rw [erased]
    exact changesBelow_erase fs _

end Steps

end Files.FileSystem

open BusReference.Files.FileSystem (ChangesBelow)

/-! ## Runs -/

namespace Printing

/-- Every path that a run reports is that of one of its pages. -/
theorem exists_page_of_reported
    {render : Renderer} {force : Bool} {fs : FileSystem} {pages : List Page}
    {path : String}
    (reported :
      let run := writePages render force fs pages
      path ∈ run.written ++ run.skipped) :
    ∃ page ∈ pages, page.path = path := by
  dsimp only at reported
  induction pages generalizing fs with
  | nil => cases reported
  | cons page pages ih =>
      have later {fs : FileSystem}
          (member : path ∈ (writePages render force fs pages).written ++
            (writePages render force fs pages).skipped) :
          ∃ other ∈ page :: pages, other.path = path := by
        obtain ⟨other, listed, same⟩ := ih member
        exact ⟨other, List.mem_cons_of_mem _ listed, same⟩
      rcases writePages_cons_cases render force fs page pages with
        ⟨-, run⟩ | ⟨-, text, after, -, -, run⟩ | ⟨-, after, error, -, run⟩
      · rw [run] at reported
        rcases List.mem_cons.mp
          (List.perm_middle.mem_iff.mp reported) with rfl | member
        · exact ⟨page, List.mem_cons_self, rfl⟩
        · exact later member
      · rw [run] at reported
        rcases List.mem_cons.mp reported with rfl | member
        · exact ⟨page, List.mem_cons_self, rfl⟩
        · exact later member
      · rw [run] at reported
        cases reported

section Print

variable
    {render : Renderer} {edition : Edition} {grouping : Grouping}
    {destination : String} {force : Bool} {fs : FileSystem}

/-- A page of a direct destination stands below the way of the destination. -/
theorem way_isPrefix_of_mem_all
    (slugs : grouping.SlugsAreNames) {page : Page}
    (direct : IsDirect destination)
    (member : page ∈ Page.all edition destination grouping) :
    way destination <+: way (parent page.path) := by
  have named : IsNamed page.path := Page.placed_all direct slugs page member
  obtain ⟨relative, nonempty, below⟩ :=
    Page.exists_below_of_mem_all slugs member
  rw [← named.dropLast_way, below, List.dropLast_append_of_ne_nil nonempty]
  exact List.prefix_append _ _

theorem changesBelow_writePages
    (slugs : grouping.SlugsAreNames) (direct : IsDirect destination)
    (tree : fs.IsTree) :
    ChangesBelow fs
      (writePages render force fs
        (Page.all edition destination grouping)).files
      (way destination) := by
  have placed : Placed (Page.all edition destination grouping) :=
    Page.placed_all direct slugs
  refine (writePages_preserves
    (fun after => ChangesBelow fs after (way destination))
    ?_ tree placed (.refl fs _)).2
  intro before page text treeBefore member _ soFar
  exact soFar.trans (treeBefore.changesBelow_write (placed page member)
    (way_isPrefix_of_mem_all slugs direct member) text)

/-- A printing changes nothing but the destination and what is below it, up to
directories on the way to it. -/
theorem changesBelow_print
    (slugs : grouping.SlugsAreNames) (direct : IsDirect destination)
    (tree : fs.IsTree) :
    ChangesBelow fs
      (print render edition grouping destination force fs).files
      (way destination) := by
  rcases print_cases render edition grouping destination force fs with
    ⟨error, refused⟩ | ⟨-, ⟨-, run⟩ |
      ⟨-, ⟨base, error, removed, refused⟩ | ⟨base, removed, run⟩⟩⟩
  · rw [refused]
    exact .refl fs _
  · rw [run]
    exact changesBelow_writePages slugs direct tree
  all_goals
    have cleared := fs.changesBelow_removeTree direct
    have treeBase := tree.removeTree destination
    rw [removed] at cleared treeBase
  · rw [refused]
    exact cleared
  · rw [run]
    exact cleared.trans (changesBelow_writePages slugs direct treeBase)

theorem exists_page_of_reported_print
    {path : String}
    (reported :
      let run := print render edition grouping destination force fs
      path ∈ run.written ++ run.skipped) :
    ∃ page ∈ Page.all edition destination grouping, page.path = path := by
  dsimp only at reported
  rcases print_cases render edition grouping destination force fs with
    ⟨error, refused⟩ | ⟨-, ⟨-, run⟩ |
      ⟨-, ⟨base, error, removed, refused⟩ | ⟨base, removed, run⟩⟩⟩
  · rw [refused] at reported
    cases reported
  · rw [run] at reported
    exact exists_page_of_reported reported
  · rw [refused] at reported
    cases reported
  · rw [run] at reported
    exact exists_page_of_reported reported

end Print

end Printing

/-! ## Projects -/

/--
A result of a printing into a direct destination stays within it: reported
paths are direct and lead strictly below the destination, and files and
directories differ at the destination or below it only, or are missing
directories on the way to it that were created.
-/
structure PrintResult.StaysWithin
    (result : PrintResult) (destination : String) (before : FileSystem) :
    Prop where
  reported :
    ∀ written skipped, result.outcome = .ok (.printed written skipped) →
      ∀ path ∈ written ++ skipped,
        IsDirect path ∧
          ∃ relative ≠ [], way path = way destination ++ relative
  changed :
    ∀ place, result.files.get? place ≠ before.get? place →
      way destination <+: place ∨
        before.get? place = none ∧
          result.files.get? place = some .directory ∧
          place <+: way destination

namespace Project

section Confined

variable
    {destination : String} {force : Bool} {fs : FileSystem}

theorem staysWithin_of_nothing
    (destination : String) (fs : FileSystem)
    {outcome : Except Error PrintOutcome}
    (silent : ∀ written skipped, outcome ≠ .ok (.printed written skipped)) :
    PrintResult.StaysWithin ⟨fs, outcome⟩ destination fs where
  reported written skipped done := absurd done (silent written skipped)
  changed _ differs := absurd rfl differs

/-- Going on after any answer stays within the destination. -/
theorem staysWithin_resumePrint
    {grouping : Grouping} (slugs : grouping.SlugsAreNames)
    (direct : IsDirect destination) (tree : fs.IsTree)
    (edition : Edition) (force : Bool) (reply : Except Error Bool) :
    (resumePrint edition grouping destination force fs reply).StaysWithin
      destination fs := by
  rcases reply with error | confirmed
  · exact staysWithin_of_nothing destination fs nofun
  · cases confirmed with
    | false => exact staysWithin_of_nothing destination fs nofun
    | true =>
        rw [resumePrint, PrintResult.ofRun]
        refine ⟨?_, ?_⟩
        · intro written skipped done path member
          split at done
          · cases done
          · cases done
            obtain ⟨page, listed, rfl⟩ :=
              Printing.exists_page_of_reported_print member
            exact ⟨(Page.placed_all direct slugs page listed).direct,
              Page.exists_below_of_mem_all slugs listed⟩
        · intro place differs
          exact (Printing.changesBelow_print slugs direct tree place).resolve_left
            differs

/--
A printing of a scanned project into a direct destination stays within it,
whatever is answered to its question.  So it does with any other way to find
the domain of a class, as long as the domain is a stretch of the name.
-/
theorem print_staysWithin
    {p : Project} (scanned : p.index.Scanned)
    (direct : IsDirect destination) (tree : fs.IsTree) :
    (∀ docs force confirm,
      ((p.print docs destination force fs).answer confirm).StaysWithin
        destination fs) ∧
    ∀ domainOf : String → String,
      (∀ name, (domainOf name).toList <:+: name.toList) →
      ∀ grouping,
        Grouping.collect (Definition.readWith p.index domainOf) p.handlers =
            .ok grouping →
        ∀ edition force reply,
          (resumePrint edition grouping destination force fs reply).StaysWithin
            destination fs := by
  constructor
  · intro docs force confirm
    rcases print_cases p docs destination force fs with
      ⟨error, atOnce, -⟩ | ⟨-, grouping, grouped, outcome⟩
    · rw [atOnce]
      exact staysWithin_of_nothing destination fs nofun
    · have slugs : grouping.SlugsAreNames :=
        (Grouping.slugsAreInert_of_ofHandlers scanned.inert
          grouped).slugsAreNames
      rcases outcome with ⟨-, asked⟩ | ⟨-, goesOn⟩
      · rw [asked]
        exact staysWithin_resumePrint slugs direct tree _ force _
      · rw [goesOn, Confirmed.answer]
        exact staysWithin_resumePrint slugs direct tree _ force _
  · intro domainOf captures grouping grouped edition force reply
    exact staysWithin_resumePrint
      (Grouping.slugsAreInert_of_collect scanned.inert captures
        grouped).slugsAreNames
      direct tree edition force reply

end Confined

/-- The project of one command, whose page is new in a new directory. -/
theorem print_staysWithin_addTax :
    let p : Project := ⟨Printing.taxIndex, .testFixtures,
      Printing.taxHandlers [Printing.addTax]⟩
    let result := (p.print { layout := .flat } "/new/docs" true {}).answer
      fun _ => .ok false
    result.outcome =
        .ok (.printed ["/new/docs/tax.md", "/new/docs/_index.md"] []) ∧
      result.files.get? ["new"] = some .directory ∧
      result.StaysWithin "/new/docs" {} := by
  intro p result
  have grouped : p.grouping = .ok (Printing.taxGrouping [Printing.addTax]) :=
    Printing.grouped_tax (by simp)
  have goesOn : result = resumePrint (Edition.of .flat none)
      (Printing.taxGrouping [Printing.addTax]) "/new/docs" true {}
      (.ok true) := by
    show (p.print { layout := .flat } "/new/docs" true {}).answer _ = _
    rw [print, grouped]
    rfl
  refine ⟨?_, ?_, ?_⟩
  · rw [goesOn]
    decide +kernel
  · rw [goesOn]
    decide +kernel
  · exact (print_staysWithin Printing.taxIndex_scanned (by decide)
      (by decide +kernel)).1 _ _ _

end Project

end BusReference
