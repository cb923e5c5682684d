import BusReference.Printing.Run
import BusReference.Proofs.Files.Effect

/-!
# Writing pages one after another

A page is skipped, written or refused; what one page does to the files is
known from the effect of a single writing, and a run is an induction over its
pages.  Whatever the outcome, a run leaves a tree and keeps every node that is
not the place of one of its pages.  A run that is not forced keeps every node.
-/

namespace BusReference.Printing

open BusReference.Files
open BusReference.Files.Path (IsNamed way)

/-- Every page is to stand at a path that ends in a name. -/
def Placed (pages : List Page) : Prop :=
  ∀ page ∈ pages, IsNamed page.path

namespace Placed

variable {page : Page} {pages : List Page}

theorem head (placed : Placed (page :: pages)) : IsNamed page.path :=
  placed page List.mem_cons_self

theorem tail (placed : Placed (page :: pages)) : Placed pages :=
  fun other member => placed other (List.mem_cons_of_mem _ member)

theorem take (placed : Placed pages) (count : Nat) :
    Placed (pages.take count) :=
  fun other member => placed other (List.mem_of_mem_take member)

end Placed

/-! ## One page -/

section Step

variable
    (render : Renderer) (force : Bool) (fs : FileSystem)
    (page : Page) (pages : List Page)

/-- The page is there and is to be kept. -/
def keepsPage (force : Bool) (fs : FileSystem) (page : Page) : Bool :=
  !force && fs.pathExists page.path

/-- The three ways in which a run deals with its first page. -/
theorem writePages_cons_cases :
    (keepsPage force fs page = true ∧
      writePages render force fs (page :: pages) =
        { writePages render force fs pages with
          skipped :=
            page.path :: (writePages render force fs pages).skipped }) ∨
    (keepsPage force fs page = false ∧
      ∃ text after,
        render page.template page.context = .ok text ∧
        fs.write page.path text = (after, .ok ()) ∧
        writePages render force fs (page :: pages) =
          { writePages render force after pages with
            written :=
              page.path :: (writePages render force after pages).written
            rendered :=
              page :: (writePages render force after pages).rendered }) ∨
    (keepsPage force fs page = false ∧
      ∃ after error,
        (after = fs ∨ ∃ text reason,
          fs.write page.path text = (after, .error reason)) ∧
        writePages render force fs (page :: pages) =
          { files := after, rendered := [page], failure := some error }) := by
  rw [writePages, keepsPage]
  by_cases kept : (!force && fs.pathExists page.path) = true
  · exact Or.inl ⟨kept, by rw [if_pos kept]⟩
  · rw [if_neg kept]
    have notKept : (!force && fs.pathExists page.path) = false := by
      simpa using kept
    rcases rendered : render page.template page.context with error | text
    · exact Or.inr (Or.inr
        ⟨notKept, fs, error, Or.inl rfl, rfl⟩)
    · rcases written : fs.write page.path text with ⟨after, reason | done⟩
      · exact Or.inr (Or.inr
          ⟨notKept, after, .ofWrite reason,
            Or.inr ⟨text, reason, written⟩, by simp only [written]⟩)
      · exact Or.inr (Or.inl
          ⟨notKept, text, after, rfl, written, by simp only [written]⟩)

end Step

section Put

variable {fs after : FileSystem} {page : Page} {text : String}

/-- A page that is written stands in a tree. -/
theorem stands_of_put
    (tree : fs.IsTree) (named : IsNamed page.path)
    (put : fs.write page.path text = (after, .ok ())) :
    after.IsTree ∧
      after.get? (way page.path) = some (.file text.toUTF8) := by
  have treeAfter := tree.write named text
  have done : (fs.write page.path text).2 = .ok () := by rw [put]
  have stands := tree.get?_write_self named done
  rw [put] at treeAfter stands
  exact ⟨treeAfter, stands⟩

theorem get?_of_put
    (tree : fs.IsTree) (named : IsNamed page.path)
    (put : fs.write page.path text = (after, .ok ()))
    (place : Location) :
    after.get? place =
      if place = way page.path then some (.file text.toUTF8)
      else if place <+: way page.path then some .directory
      else fs.get? place := by
  have done : (fs.write page.path text).2 = .ok () := by rw [put]
  have effect := tree.get?_write named done place
  rw [put] at effect
  exact effect

end Put

/-! ## Whole runs -/

section Run

variable
    {render : Renderer} {force : Bool} {fs : FileSystem}
    {pages : List Page}

/--
What every writing of a page preserves in a tree, a run preserves, and it
leaves a tree.  Every other statement about arbitrary runs is an instance.
-/
theorem writePages_preserves
    (Holds : FileSystem → Prop)
    (step :
      ∀ before page text, before.IsTree → page ∈ pages →
        keepsPage force before page = false → Holds before →
          Holds (before.write page.path text).1)
    (tree : fs.IsTree) (placed : Placed pages) (start : Holds fs) :
    (writePages render force fs pages).files.IsTree ∧
      Holds (writePages render force fs pages).files := by
  induction pages generalizing fs with
  | nil => exact ⟨tree, start⟩
  | cons page pages ih =>
      have stepLater := fun before other text treeBefore member =>
        step before other text treeBefore (List.mem_cons_of_mem page member)
      have stepNow := fun text notKept =>
        step fs page text tree List.mem_cons_self notKept start
      rcases writePages_cons_cases render force fs page pages with
        ⟨-, run⟩ | ⟨notKept, text, after, -, written, run⟩ |
        ⟨notKept, after, error, effect, run⟩
      · rw [run]
        exact ih stepLater tree placed.tail start
      · rw [run]
        have treeAfter := tree.write placed.head text
        have holds := stepNow text notKept
        rw [written] at treeAfter holds
        exact ih stepLater treeAfter placed.tail holds
      · rw [run]
        rcases effect with rfl | ⟨text, reason, written⟩
        · exact ⟨tree, start⟩
        · have treeAfter := tree.write placed.head text
          have holds := stepNow text notKept
          rw [written] at treeAfter holds
          exact ⟨treeAfter, holds⟩

theorem writePages_isTree
    (tree : fs.IsTree) (placed : Placed pages) :
    (writePages render force fs pages).files.IsTree :=
  (writePages_preserves (fun _ => True)
    (fun _ _ _ _ _ _ _ => trivial) tree placed trivial).1

/--
A run keeps every node, unless it is forced and the node stands where one of
the pages is to stand.
-/
theorem writePages_keeps
    (tree : fs.IsTree) (placed : Placed pages)
    {place : Location} {node : Node}
    (elsewhere : force = true → ∀ page ∈ pages, place ≠ way page.path)
    (stood : fs.get? place = some node) :
    (writePages render force fs pages).files.get? place = some node := by
  refine (writePages_preserves
    (fun after => after.get? place = some node)
    ?_ tree placed stood).2
  intro before page text treeBefore member notKept stands
  refine treeBefore.write_keeps (placed page member) text ?_ stands
  rintro rfl
  by_cases forced : force = true
  · exact elsewhere forced page member rfl
  · -- an unforced run would have kept the page, since something is there
    rw [keepsPage, treeBefore.pathExists_eq (placed page member),
      stands] at notKept
    simp [forced] at notKept

end Run

/-! ## Complete runs -/

/--
A run over the pages ends without a failure: it leaves the files `after`,
having written and skipped the pages at the given paths.
-/
inductive Completes (render : Renderer) (force : Bool) :
    FileSystem → List Page → FileSystem → List String → List String → Prop
  | done (fs : FileSystem) :
      Completes render force fs [] fs [] []
  | skip {fs after : FileSystem} {page : Page} {pages : List Page}
      {written skipped : List String}
      (kept : keepsPage force fs page = true)
      (rest : Completes render force fs pages after written skipped) :
      Completes render force fs (page :: pages) after written
        (page.path :: skipped)
  | write {fs middle after : FileSystem} {page : Page}
      {pages : List Page} {written skipped : List String} {text : String}
      (notKept : keepsPage force fs page = false)
      (rendered : render page.template page.context = .ok text)
      (put : fs.write page.path text = (middle, .ok ()))
      (rest : Completes render force middle pages after written skipped) :
      Completes render force fs (page :: pages) after
        (page.path :: written) skipped

section Complete

variable
    {render : Renderer} {force : Bool} {fs middle after : FileSystem}
    {pages others : List Page} {written skipped : List String}

/-- A run without a failure is complete. -/
theorem completes_of_failure_eq_none
    (success : (writePages render force fs pages).failure = none) :
    Completes render force fs pages
      (writePages render force fs pages).files
      (writePages render force fs pages).written
      (writePages render force fs pages).skipped := by
  induction pages generalizing fs with
  | nil => exact .done fs
  | cons page pages ih =>
      rcases writePages_cons_cases render force fs page pages with
        ⟨kept, run⟩ | ⟨notKept, text, after, rendered, put, run⟩ |
        ⟨-, after, error, -, run⟩
      · rw [run] at success ⊢
        exact .skip kept (ih success)
      · rw [run] at success ⊢
        exact .write notKept rendered put (ih success)
      · rw [run] at success
        cases success

/-- What a complete run leaves and reports is what the pages lead to. -/
theorem Completes.writePages_eq
    (run : Completes render force fs pages after written skipped) :
    ∃ rendered, writePages render force fs pages =
      { files := after, written, skipped, rendered } := by
  induction run with
  | done fs => exact ⟨[], rfl⟩
  | skip kept rest ih =>
      obtain ⟨rendered, run⟩ := ih
      rw [keepsPage] at kept
      exact ⟨rendered, by rw [writePages, if_pos kept, run]⟩
  | @write fs middle after page pages written skipped text notKept done put
      rest ih =>
      obtain ⟨rendered, run⟩ := ih
      rw [keepsPage] at notKept
      exact ⟨page :: rendered, by
        simp only [writePages, notKept, done, put, run,
          Bool.false_eq_true, if_false]⟩

theorem Completes.isTree
    (run : Completes render force fs pages after written skipped)
    (tree : fs.IsTree) (placed : Placed pages) : after.IsTree := by
  obtain ⟨rendered, equal⟩ := run.writePages_eq
  have treeAfter : (writePages render force fs pages).files.IsTree :=
    writePages_isTree tree placed
  rw [equal] at treeAfter
  exact treeAfter

/-- A complete run keeps what every run keeps. -/
theorem Completes.keeps
    (run : Completes render force fs pages after written skipped)
    (tree : fs.IsTree) (placed : Placed pages)
    {place : Location} {node : Node}
    (elsewhere : force = true → ∀ page ∈ pages, place ≠ way page.path)
    (stood : fs.get? place = some node) :
    after.get? place = some node := by
  obtain ⟨rendered, equal⟩ := run.writePages_eq
  have kept :
      (writePages render force fs pages).files.get? place = some node :=
    writePages_keeps tree placed elsewhere stood
  rw [equal] at kept
  exact kept

theorem Completes.append
    {laterWritten laterSkipped : List String}
    (run : Completes render force fs pages middle written skipped)
    (later :
      Completes render force middle others after
        laterWritten laterSkipped) :
    Completes render force fs (pages ++ others) after
      (written ++ laterWritten) (skipped ++ laterSkipped) := by
  induction run with
  | done fs => exact later
  | skip kept rest ih => exact .skip kept (ih later)
  | write notKept rendered put rest ih =>
      exact .write notKept rendered put (ih later)

/-- A complete run is complete up to every page and from there on. -/
theorem Completes.split
    (run : Completes render force fs (pages ++ others) after
      written skipped) :
    ∃ middle firstWritten firstSkipped laterWritten laterSkipped,
      Completes render force fs pages middle
        firstWritten firstSkipped ∧
      Completes render force middle others after
        laterWritten laterSkipped ∧
      written = firstWritten ++ laterWritten ∧
      skipped = firstSkipped ++ laterSkipped := by
  induction pages generalizing fs written skipped with
  | nil =>
      exact ⟨fs, [], [], written, skipped, .done fs, run, rfl, rfl⟩
  | cons page pages ih =>
      cases run with
      | skip kept rest =>
          obtain ⟨middle, firstWritten, firstSkipped, laterWritten,
            laterSkipped, first, later, rfl, rfl⟩ := ih rest
          exact ⟨middle, _, _, _, _, .skip kept first, later, rfl, rfl⟩
      | write notKept rendered put rest =>
          obtain ⟨middle, firstWritten, firstSkipped, laterWritten,
            laterSkipped, first, later, rfl, rfl⟩ := ih rest
          exact ⟨middle, _, _, _, _,
            .write notKept rendered put first, later, rfl, rfl⟩

end Complete

/-! ## Printing -/

section Print

variable
    (render : Renderer) (edition : Edition) (grouping : Grouping)
    (destination : String) (force : Bool) (fs : FileSystem)

/-- What is checked before the first page is written. -/
def Admits (edition : Edition) (grouping : Grouping) : Prop :=
  checkVersion edition = .ok () ∧ checkSlugs grouping = .ok ()

/-- How the printing begins. -/
theorem print_cases :
    (∃ error, print render edition grouping destination force fs =
      .refuse fs error) ∨
    Admits edition grouping ∧
      (force = false ∧
        print render edition grouping destination force fs =
          writePages render false fs
            (Page.all edition destination grouping) ∨
      force = true ∧
        ((∃ base error, fs.removeTree destination = (base, .error error) ∧
          print render edition grouping destination force fs =
            .refuse base (.treeNotRemoved destination error)) ∨
        (∃ base, fs.removeTree destination = (base, .ok ()) ∧
          print render edition grouping destination force fs =
            writePages render true base
              (Page.all edition destination grouping)))) := by
  rw [print]
  rcases version : checkVersion edition with error | ⟨⟩
  · exact Or.inl ⟨error, rfl⟩
  · rcases slugs : checkSlugs grouping with error | ⟨⟩
    · exact Or.inl ⟨error, rfl⟩
    · refine Or.inr ⟨⟨version, slugs⟩, ?_⟩
      cases force with
      | false => exact Or.inl ⟨rfl, rfl⟩
      | true =>
          refine Or.inr ⟨rfl, ?_⟩
          rcases removed : fs.removeTree destination with ⟨base, error | ⟨⟩⟩
          · exact Or.inl ⟨base, error, rfl, rfl⟩
          · exact Or.inr ⟨base, rfl, rfl⟩

variable {render edition grouping destination force fs}

theorem Admits.print_eq (admits : Admits edition grouping) :
    print render edition grouping destination false fs =
      writePages render false fs
        (Page.all edition destination grouping) := by
  rw [print, admits.1, admits.2]
  rfl

theorem admits_of_print
    (success :
      (print render edition grouping destination force fs).failure = none) :
    Admits edition grouping := by
  rcases print_cases render edition grouping destination force fs with
    ⟨error, refused⟩ | ⟨admits, -⟩
  · rw [refused] at success
    cases success
  · exact admits

/-- A forced printing that succeeds is a complete run from a clear place. -/
theorem exists_base_of_print_forced
    (success :
      (print render edition grouping destination true fs).failure =
        none) :
    ∃ base, fs.removeTree destination = (base, .ok ()) ∧
      Admits edition grouping ∧
      print render edition grouping destination true fs =
        writePages render true base
          (Page.all edition destination grouping) := by
  rcases print_cases render edition grouping destination true fs with
    ⟨error, refused⟩ | ⟨admits, ⟨unforced, -⟩ |
      ⟨-, ⟨base, error, removed, refused⟩ | ⟨base, removed, run⟩⟩⟩
  · rw [refused] at success
    cases success
  · cases unforced
  · rw [refused] at success
    cases success
  · exact ⟨base, removed, admits, run⟩

/-- A forced printing that succeeds has cleared the destination. -/
theorem removeTree_of_print_forced
    (success :
      (print render edition grouping destination true fs).failure = none) :
    (fs.removeTree destination).2 = .ok () := by
  obtain ⟨base, removed, -⟩ := exists_base_of_print_forced success
  rw [removed]

/-- A printing that succeeds is a run over all pages, from the files that it
found or from what is left of them without the destination. -/
theorem print_eq_of_success
    (success :
      (print render edition grouping destination force fs).failure = none) :
    print render edition grouping destination force fs =
      writePages render force
        (if force then (fs.removeTree destination).1 else fs)
        (Page.all edition destination grouping) := by
  cases force with
  | false => exact (admits_of_print success).print_eq
  | true =>
      obtain ⟨base, removed, -, run⟩ := exists_base_of_print_forced success
      rw [run, if_pos rfl, removed]

/-- A printing that succeeds is a complete run over all pages. -/
theorem completes_of_print
    (success :
      (print render edition grouping destination force fs).failure = none) :
    let run := print render edition grouping destination force fs
    Completes render force
      (if force then (fs.removeTree destination).1 else fs)
      (Page.all edition destination grouping)
      run.files run.written run.skipped := by
  have equal := print_eq_of_success success
  rw [equal] at success
  rw [equal]
  exact completes_of_failure_eq_none success

end Print

end BusReference.Printing
