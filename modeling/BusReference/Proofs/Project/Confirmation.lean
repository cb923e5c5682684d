import BusReference.Project.Basic
import BusReference.Proofs.Definition.Slugs

/-!
# Losing nothing unasked

Printing a project removes a destination only after a confirmed question.
Whatever else happens, a run that was not confirmed keeps every file: unless it
is forced it keeps what is there, and if it is forced without a question, then
there is no destination, so all its pages are new.  This needs that no page can
stand outside of the destination, hence that the project was read from source
texts.
-/

namespace BusReference

open BusReference.Files
open BusReference.Files.Path (IsDirect way)
open BusReference.Php (Index)

/-! ## Scanned projects -/

namespace Scan

theorem exists_read_of_readFile
    {fs : FileSystem} {path : FilePath} {place : Location}
    {ds : List Php.Declaration}
    (done : readFile fs path place = .ok ds) :
    ∃ source, Php.SourceFile.read source (some path) = .ok ds := by
  rw [readFile] at done
  split at done
  · cases done
  · rename_i source text
    split at done
    · cases done
    · rename_i read
      cases done
      exact ⟨source, read⟩

theorem scanned_files
    {fs : FileSystem} {root : FilePath} {place : Location} {index : Index}
    (scanned : index.Scanned) (ways : List (List Name)) :
    (files fs root place index ways).index.Scanned := by
  induction ways generalizing index with
  | nil => exact scanned
  | cons way ways ih =>
      rw [files]
      split
      · exact scanned
      · rename_i ds done
        obtain ⟨source, read⟩ := exists_read_of_readFile done
        exact ih (.source scanned read)

theorem scanned_directory
    {fs : FileSystem} {index : Index} (scanned : index.Scanned)
    (root : FilePath) : (directory fs index root).index.Scanned := by
  rw [directory]
  split
  · exact scanned
  · split
    · exact scanned_files scanned _
    · exact scanned

theorem scanned_directories
    {fs : FileSystem} {index : Index} (scanned : index.Scanned)
    (roots : List FilePath) : (directories fs index roots).index.Scanned := by
  induction roots generalizing index with
  | nil => exact scanned
  | cons root roots ih =>
      rw [directories]
      dsimp only
      split
      · exact scanned_directory scanned root
      · exact ih (scanned_directory scanned root)

end Scan

/-- A project that was loaded has the index of its source files. -/
theorem Project.scanned_of_load
    {fs : FileSystem} {settings : SourceSettings} {p : Project}
    (loaded : (load fs settings).2 = .ok p) : p.index.Scanned := by
  rw [load] at loaded
  split at loaded
  · cases loaded
  · split at loaded
    · cases loaded
    · dsimp only at loaded
      split at loaded
      · cases loaded
      · split at loaded
        · cases loaded
        · cases loaded
          exact Scan.scanned_directories .empty _

/-! ## Runs without a question -/

namespace Printing

/--
A forced printing into a place where nothing stands keeps every node, however
it ends.
-/
theorem print_forced_keeps
    {render : Renderer} {edition : Edition} {grouping : Grouping}
    {destination : String} {fs : FileSystem}
    (slugs : grouping.SlugsAreNames) (direct : IsDirect destination)
    (tree : fs.IsTree)
    (missing : fs.pathExists destination = false)
    {place : Location} {node : Node} (stood : fs.get? place = some node) :
    (print render edition grouping destination true fs).files.get? place =
      some node := by
  have notDirectory : fs.get? (way destination) ≠ some .directory := by
    intro directory
    rw [FileSystem.pathExists, FileSystem.node?,
      tree.locate_eq_ok direct directory] at missing
    simp [directory] at missing
  rcases print_cases render edition grouping destination true fs with
    ⟨error, refused⟩ | ⟨-, ⟨unforced, -⟩ |
      ⟨-, ⟨base, error, removed, refused⟩ | ⟨base, removed, run⟩⟩⟩
  · rw [refused]
    exact stood
  · cases unforced
  · rw [refused]
    rcases fs.removeTree_cases direct with
      ⟨reason, failed⟩ | ⟨nothing, -⟩ | ⟨erased, -⟩
    · rw [failed] at removed
      cases removed
      exact stood
    · rw [nothing] at removed
      cases removed
    · rw [erased] at removed
      cases removed
  · rcases fs.removeTree_cases direct with
      ⟨reason, failed⟩ | ⟨nothing, nowhere⟩ | ⟨-, directory⟩
    · rw [failed] at removed
      cases removed
    · rw [nothing] at removed
      cases removed
      rw [run]
      refine writePages_keeps tree (Page.placed_all direct slugs) ?_ stood
      -- every page is to stand below the destination, where nothing is
      rintro - page member rfl
      obtain ⟨relative, -, below⟩ := Page.exists_below_of_mem_all slugs member
      rw [tree.get?_below_of_none
        (tree.get?_of_locate_missing direct nowhere)
        (below ▸ List.prefix_append _ _)] at stood
      cases stood
    · exact absurd directory notDirectory

theorem print_unforced_keeps
    {render : Renderer} {edition : Edition} {grouping : Grouping}
    {destination : String} {fs : FileSystem}
    (slugs : grouping.SlugsAreNames) (direct : IsDirect destination)
    (tree : fs.IsTree)
    {place : Location} {node : Node} (stood : fs.get? place = some node) :
    (print render edition grouping destination false fs).files.get? place =
      some node := by
  rcases print_cases render edition grouping destination false fs with
    ⟨error, refused⟩ | ⟨-, ⟨-, run⟩ | ⟨forced, -⟩⟩
  · rw [refused]
    exact stood
  · rw [run]
    exact writePages_keeps tree (Page.placed_all direct slugs) nofun stood
  · cases forced

end Printing

/-! ## The question -/

section Question

variable
    {p : Project} {docs : DocsSettings} {destination : String}
    {force : Bool} {confirm : String → Except Error Bool}
    {fs : FileSystem} {place : Location} {content : ByteArray}

/--
A file that stood before the printing of a scanned project and does not stand
any more, or has other content, was in a destination whose removal was asked
about and confirmed.
-/
theorem Project.confirmed_of_print_loses
    (scanned : p.index.Scanned) (direct : IsDirect destination)
    (tree : fs.IsTree)
    (stood : fs.get? place = some (.file content))
    (lost :
      ((p.print docs destination force fs).answer confirm).files.get? place ≠
        some (.file content)) :
    force = true ∧ fs.pathExists destination = true ∧
      (∃ resume,
        p.print docs destination force fs = .ask destination resume) ∧
      confirm destination = .ok true := by
  rw [Project.print] at lost ⊢
  rcases version : Printing.checkVersion (Edition.of docs.layout docs.version)
    with error | ⟨⟩
  · simp only [version] at lost
    exact absurd stood lost
  · rcases grouped : p.grouping with error | grouping
    · simp only [version, grouped] at lost
      exact absurd stood lost
    · have slugs : grouping.SlugsAreNames :=
        (Grouping.slugsAreInert_of_ofHandlers scanned.inert
          grouped).slugsAreNames
      simp only [version, grouped] at lost ⊢
      by_cases asks : (force && fs.pathExists destination) = true
      · rw [if_pos asks] at lost ⊢
        obtain ⟨forced, stands⟩ := Bool.and_eq_true_iff.mp asks
        refine ⟨forced, stands, ⟨_, rfl⟩, ?_⟩
        rw [Confirmed.answer] at lost
        rcases reply : confirm destination with error | answer
        · rw [reply] at lost
          exact absurd stood lost
        · cases answer with
          | true => rfl
          | false =>
              rw [reply] at lost
              exact absurd stood lost
      · rw [if_neg asks] at lost
        refine absurd ?_ lost
        rw [Confirmed.answer, Project.resumePrint, PrintResult.ofRun]
        cases force with
        | false => exact Printing.print_unforced_keeps slugs direct tree stood
        | true =>
            have missing : fs.pathExists destination = false := by
              simpa using asks
            exact Printing.print_forced_keeps slugs direct tree missing stood

end Question

/-- A source file with a command. -/
def taxSource : String :=
  "<?php namespace Shop\\Tax\\Command; class AddTax {}"

/-- A project with a command that no handler takes. -/
def taxProject : Project where
  index := Index.registerAll {}
    ((Php.SourceFile.read taxSource none).toOption.getD [])
  pattern := .core
  handlers := {}

/-- A file in a destination. -/
def oldPage : FileSystem where
  entries := [
    (["docs"], .directory),
    (["docs", "old.md"], .file "old".toUTF8)]

theorem taxProject_scanned : taxProject.index.Scanned := by
  have readable : (Php.SourceFile.read taxSource none).isOk = true := by
    decide +kernel
  rcases read : Php.SourceFile.read taxSource none with fault | ds
  · rw [read] at readable
    cases readable
  · rw [taxProject, read]
    exact .source .empty read

/-- A confirmed printing loses the old page, so it has asked. -/
theorem Project.confirmed_of_print_loses_oldPage :
    let run := taxProject.print { layout := .flat } "/docs" true oldPage
    (run.answer fun _ => .ok true).files.get? ["docs", "old.md"] = none ∧
      ∃ resume, run = .ask "/docs" resume := by
  intro run
  have removed :
      (run.answer fun _ => .ok true).files.get? ["docs", "old.md"] =
        none := by
    decide
  have stood : oldPage.get? ["docs", "old.md"] =
      some (.file "old".toUTF8) := by
    decide
  have lost : (run.answer fun _ => .ok true).files.get? ["docs", "old.md"] ≠
      some (.file "old".toUTF8) := by
    rw [removed]
    nofun
  obtain ⟨-, -, asked, -⟩ :=
    Project.confirmed_of_print_loses taxProject_scanned (by decide)
      (by decide) stood lost
  exact ⟨removed, asked⟩

end BusReference
