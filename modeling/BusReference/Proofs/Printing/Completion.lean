import Mathlib.Data.List.Basic
import BusReference.Proofs.Printing.Place

/-!
# Completing the reference

A run that is not forced adds what is missing and keeps what is there.  Which
pages it writes depends on the files that it has written before, yet in the end
it has written exactly the paths that were free at the start, each once and in
the order of the pages, and skipped the rest.  Hence a run that takes up the
work of an interrupted one ends where that one would have ended.
-/

namespace BusReference.Printing

open BusReference.Files
open BusReference.Files.Path (IsDirect IsNamed way)

/-! ## Complete runs that are not forced -/

section Unforced

variable
    {render : Renderer} {fs after : FileSystem}
    {page : Page} {pages : List Page} {written skipped : List String}

/-- A page that is kept stands in the files. -/
theorem exists_of_keepsPage
    (tree : fs.IsTree) (named : IsNamed page.path)
    (kept : keepsPage false fs page = true) :
    ∃ node, fs.get? (way page.path) = some node := by
  rw [keepsPage, tree.pathExists_eq named] at kept
  exact Option.isSome_iff_exists.mp (by simpa using kept)

/-- A page that is not kept is missing. -/
theorem missing_of_not_keepsPage
    (tree : fs.IsTree) (named : IsNamed page.path)
    (notKept : keepsPage false fs page = false) :
    fs.get? (way page.path) = none := by
  rw [keepsPage, tree.pathExists_eq named] at notKept
  simpa using notKept

namespace Completes

/--
A written path was free at the start, and in the end it holds the text of the
first page for it.
-/
theorem exists_rendered_of_mem_written
    (run : Completes render false fs pages after written skipped)
    (tree : fs.IsTree) (placed : Placed pages)
    {path : String} (member : path ∈ written) :
    fs.get? (way path) = none ∧
      ∃ page text, pages.find? (·.path == path) = some page ∧
        render page.template page.context = .ok text ∧
        after.get? (way path) = some (.file text.toUTF8) := by
  induction run with
  | done fs => cases member
  | @skip fs after page pages written skipped kept rest ih =>
      obtain ⟨free, found⟩ := ih tree placed.tail member
      obtain ⟨node, stood⟩ := exists_of_keepsPage tree placed.head kept
      have other : page.path ≠ path := by
        rintro rfl
        rw [free] at stood
        cases stood
      rw [List.find?_cons_of_neg (by simpa using other)]
      exact ⟨free, found⟩
  | @write fs middle after page pages written skipped text notKept rendered
      put rest ih =>
      have missing := missing_of_not_keepsPage tree placed.head notKept
      obtain ⟨treeMiddle, stands⟩ := stands_of_put tree placed.head put
      rcases List.mem_cons.mp member with rfl | later
      · refine ⟨missing, page, text, ?_, rendered, ?_⟩
        · rw [List.find?_cons_of_pos (by simp)]
        · exact rest.keeps treeMiddle placed.tail nofun stands
      · obtain ⟨free, found⟩ := ih treeMiddle placed.tail later
        have other : page.path ≠ path := by
          rintro rfl
          rw [stands] at free
          cases free
        rw [List.find?_cons_of_neg (by simpa using other)]
        refine ⟨?_, found⟩
        -- a node at the path would still be there in the middle
        by_contra stood
        obtain ⟨node, stood⟩ := Option.ne_none_iff_exists'.mp stood
        have kept := tree.write_keeps placed.head text
          (fun same => by rw [same, missing] at stood; cases stood) stood
        rw [put] at kept
        rw [kept] at free
        cases free

/-- What stands at the start is not written. -/
theorem not_mem_written
    (run : Completes render false fs pages after written skipped)
    (tree : fs.IsTree) (placed : Placed pages)
    {path : String} {node : Node}
    (stood : fs.get? (way path) = some node) :
    path ∉ written := by
  intro member
  obtain ⟨free, -⟩ :=
    run.exists_rendered_of_mem_written tree placed member
  rw [free] at stood
  cases stood

/-- Every page of a complete run stands in the end. -/
theorem exists_of_mem
    (run : Completes render false fs pages after written skipped)
    (tree : fs.IsTree) (placed : Placed pages)
    (member : page ∈ pages) :
    ∃ node, after.get? (way page.path) = some node := by
  induction run with
  | done fs => cases member
  | skip kept rest ih =>
      rcases List.mem_cons.mp member with rfl | later
      · obtain ⟨node, stood⟩ := exists_of_keepsPage tree placed.head kept
        exact ⟨node, rest.keeps tree placed.tail nofun stood⟩
      · exact ih tree placed.tail later
  | @write fs middle after page pages written skipped text notKept rendered
      put rest ih =>
      obtain ⟨treeMiddle, stands⟩ := stands_of_put tree placed.head put
      rcases List.mem_cons.mp member with rfl | later
      · exact ⟨_, rest.keeps treeMiddle placed.tail nofun stands⟩
      · exact ih treeMiddle placed.tail later

/-- What stands in the end stood before or is on the way to a written path. -/
theorem get?_cases
    (run : Completes render false fs pages after written skipped)
    (tree : fs.IsTree) (placed : Placed pages)
    {place : Location} {node : Node}
    (stands : after.get? place = some node) :
    fs.get? place = some node ∨
      ∃ path ∈ written, place <+: way path ∧
        (place = way path ∨ node = .directory) := by
  induction run with
  | done fs => exact Or.inl stands
  | skip kept rest ih => exact ih tree placed.tail stands
  | @write fs middle after page pages written skipped text notKept rendered
      put rest ih =>
      obtain ⟨treeMiddle, -⟩ := stands_of_put tree placed.head put
      rcases ih treeMiddle placed.tail stands with
        stood | ⟨path, member, onWay, how⟩
      · rw [get?_of_put tree placed.head put] at stood
        split at stood
        · rename_i here
          exact Or.inr ⟨page.path, List.mem_cons_self,
            here ▸ List.prefix_refl _, Or.inl here⟩
        · split at stood
          · rename_i onWay
            exact Or.inr ⟨page.path, List.mem_cons_self, onWay,
              Or.inr (Option.some.inj stood).symm⟩
          · exact Or.inl stood
      · exact Or.inr
          ⟨path, List.mem_cons_of_mem _ member, onWay, how⟩

/-! ## The report of a run -/

/-- Each path is written once, in the order of the pages. -/
theorem written_eq
    (run : Completes render false fs pages after written skipped)
    (tree : fs.IsTree) (placed : Placed pages) :
    written =
      ((pages.map (·.path)).filter (decide <| · ∈ written)).eraseDups := by
  induction run with
  | done fs => rfl
  | @skip fs after page pages written skipped kept rest ih =>
      obtain ⟨node, stood⟩ := exists_of_keepsPage tree placed.head kept
      have notWritten := rest.not_mem_written tree placed.tail stood
      rw [List.map_cons, List.filter_cons_of_neg (by simpa using notWritten)]
      exact ih tree placed.tail
  | @write fs middle after page pages written skipped text notKept rendered
      put rest ih =>
      obtain ⟨treeMiddle, stands⟩ := stands_of_put tree placed.head put
      have once := rest.not_mem_written treeMiddle placed.tail stands
      have others :
          ((pages.map (·.path)).filter
              (decide <| · ∈ page.path :: written)).filter
            (fun path => !path == page.path) =
          (pages.map (·.path)).filter (decide <| · ∈ written) := by
        rw [List.filter_filter]
        refine List.filter_congr fun path _ => ?_
        by_cases same : path = page.path
        · simp [same, once]
        · simp [same]
      rw [List.map_cons, List.filter_cons_of_pos (by simp),
        List.eraseDups_cons, others, ← ih treeMiddle placed.tail]

/-- What is not written is skipped, in the order of the pages. -/
theorem skipped_eq
    (run : Completes render false fs pages after written skipped)
    (tree : fs.IsTree) (placed : Placed pages) :
    skipped = (pages.map (·.path)).diff written := by
  induction run with
  | done fs => rfl
  | @skip fs after page pages written skipped kept rest ih =>
      obtain ⟨node, stood⟩ := exists_of_keepsPage tree placed.head kept
      have notWritten := rest.not_mem_written tree placed.tail stood
      rw [List.map_cons, List.cons_diff_of_not_mem notWritten,
        ← ih tree placed.tail]
  | @write fs middle after page pages written skipped text notKept rendered
      put rest ih =>
      obtain ⟨treeMiddle, -⟩ := stands_of_put tree placed.head put
      rw [List.map_cons, List.diff_cons, List.erase_cons_head,
        ← ih treeMiddle placed.tail]

end Completes

/-! ## Taking up the work -/

/-- Where every page stands, a run keeps them all. -/
theorem completes_of_all_stand
    (tree : fs.IsTree) (placed : Placed pages)
    (stand : ∀ page ∈ pages, ∃ node, fs.get? (way page.path) = some node) :
    Completes render false fs pages fs [] (pages.map (·.path)) := by
  induction pages with
  | nil => exact .done fs
  | cons page pages ih =>
      obtain ⟨node, stood⟩ := stand page List.mem_cons_self
      have kept : keepsPage false fs page = true := by
        rw [keepsPage, tree.pathExists_eq placed.head, stood]
        rfl
      exact .skip kept (ih placed.tail
        fun other member => stand other (List.mem_cons_of_mem _ member))

namespace Completes

/-- After the first pages a run can be taken up from the beginning. -/
theorem resume
    (run : Completes render false fs pages after written skipped)
    (tree : fs.IsTree) (placed : Placed pages) (count : Nat) :
    ∃ laterWritten laterSkipped,
      Completes render false
        (writePages render false fs (pages.take count)).files
        pages after laterWritten laterSkipped := by
  rw [← List.take_append_drop count pages] at run
  obtain ⟨middle, firstWritten, firstSkipped, laterWritten, laterSkipped,
    first, later, -, -⟩ := run.split
  obtain ⟨rendered, equal⟩ := first.writePages_eq
  have again : Completes render false middle (pages.take count) middle
      [] ((pages.take count).map (·.path)) :=
    completes_of_all_stand (first.isTree tree (placed.take count))
      (placed.take count)
      fun page member => first.exists_of_mem tree (placed.take count) member
  have whole := again.append later
  rw [List.take_append_drop] at whole
  rw [equal]
  exact ⟨_, _, whole⟩

end Completes

end Unforced

/-! ## The reference -/

section Reference

variable
    {render : Renderer} {edition : Edition} {grouping : Grouping}
    {destination : String} {fs after : FileSystem}
    {written skipped : List String} {path : String}

/-- Nothing stands at the path of a page, and nothing hides the page. -/
def isFree
    (edition : Edition) (grouping : Grouping) (destination : String)
    (fs : FileSystem) (path : String) : Bool :=
  !fs.pathExists path &&
    !(Page.hidesIndex edition grouping && path == indexFile destination)

/-- The paths written are those of pages that were free at the start. -/
theorem Completes.mem_written_iff
    (slugs : grouping.SlugsAreNames) (direct : IsDirect destination)
    (tree : fs.IsTree)
    (run :
      Completes render false fs (Page.all edition destination grouping)
        after written skipped) :
    path ∈ written ↔
      path ∈ (Page.all edition destination grouping).map (·.path) ∧
        isFree edition grouping destination fs path = true := by
  have placed : Placed (Page.all edition destination grouping) :=
    Page.placed_all direct slugs
  have treeAfter := run.isTree tree placed
  constructor
  · intro member
    obtain ⟨free, page, text, first, -, stands⟩ :=
      run.exists_rendered_of_mem_written tree placed member
    have listed := List.mem_of_find?_eq_some first
    have same : page.path = path := by simpa using List.find?_some first
    refine ⟨List.mem_map.mpr ⟨page, listed, same⟩, ?_⟩
    have absent : fs.pathExists path = false := by
      rw [tree.pathExists_eq (same ▸ placed page listed), free]
      rfl
    have shown : (Page.hidesIndex edition grouping &&
        path == indexFile destination) = false := by
      rw [Bool.and_eq_false_iff]
      by_contra hidden
      obtain ⟨hides, here⟩ : Page.hidesIndex edition grouping = true ∧
          path = indexFile destination := by simpa using hidden
      -- the page of the domain makes the written file a directory
      obtain ⟨below, inside, placeBelow⟩ :
          ∃ page ∈ Page.all edition destination grouping,
            way page.path = way (indexFile destination) ++ [.text "index.md"] :=
        Page.exists_below_of_hidesIndex slugs hides
      obtain ⟨node, standsBelow⟩ := run.exists_of_mem tree placed inside
      have directory := treeAfter.directory_above standsBelow
        (placeBelow ▸ List.prefix_append _ _) (by simp [placeBelow])
      rw [here, directory] at stands
      cases stands
    rw [isFree, absent, shown]
    rfl
  · rintro ⟨listed, free⟩
    obtain ⟨page, inside, rfl⟩ := List.mem_map.mp listed
    rw [isFree, Bool.and_eq_true, tree.pathExists_eq (placed page inside)]
      at free
    obtain ⟨absent, shown⟩ := free
    obtain ⟨node, stands⟩ := run.exists_of_mem tree placed inside
    rcases run.get?_cases tree placed stands with
      stood | ⟨path, member, onWay, -⟩
    · simp [stood] at absent
    · obtain ⟨-, other, text, first, -⟩ :=
        run.exists_rendered_of_mem_written tree placed member
      have same : other.path = path := by simpa using List.find?_some first
      rw [← same] at onWay member
      rcases Page.eq_or_hidesIndex_of_way_isPrefix slugs
        (List.mem_of_find?_eq_some first) inside onWay with
        equal | ⟨hides, here⟩
      · rw [equal]
        exact member
      · simp [hides, here] at shown

/--
The exact effect of a run over pages that keeps what is there, when some of the
paths are free.
-/
structure IsCompletion
    (render : Renderer) (pages : List Page) (free : String → Bool)
    (fs : FileSystem) (run : Run) : Prop where
  /-- The free paths are written once, in the order of the pages. -/
  written : run.written = ((pages.map (·.path)).filter free).eraseDups
  /-- All other pages are skipped, in their order. -/
  skipped : run.skipped = (pages.map (·.path)).diff run.written
  /-- A written path holds the text of the first page for it. -/
  holds : ∀ path ∈ run.written, ∃ page text,
    pages.find? (·.path == path) = some page ∧
      render page.template page.context = .ok text ∧
      run.files.node? path = some (.file text.toUTF8)
  /-- What was there is kept. -/
  keeps : ∀ place node, fs.get? place = some node →
    run.files.get? place = some node
  /-- Only the written files are new, and directories on the way to them. -/
  creates : ∀ place node, run.files.get? place = some node →
    fs.get? place = some node ∨
      ∃ path ∈ run.written, place <+: way path ∧
        (place = way path ∨ node = .directory)

/--
An unforced printing that succeeds fills exactly the free paths.  From the
files after any number of its pages, or after all of them, it ends in the same
files again, and in the latter case it writes nothing.
-/
theorem print_unforced_completes
    (slugs : grouping.SlugsAreNames) (direct : IsDirect destination)
    (tree : fs.IsTree)
    (success :
      (print render edition grouping destination false fs).failure =
        none) :
    let pages := Page.all edition destination grouping
    let run := print render edition grouping destination false
    IsCompletion render pages (isFree edition grouping destination fs) fs
        (run fs) ∧
      (∀ count,
        let midway := (writePages render false fs (pages.take count)).files
        (run midway).failure = none ∧
          (run midway).files = (run fs).files) ∧
      (run (run fs).files).failure = none ∧
      (run (run fs).files).files = (run fs).files ∧
      (run (run fs).files).written = [] := by
  intro pages run
  have placed : Placed pages := Page.placed_all direct slugs
  have asWritten : ∀ start, run start = writePages render false start pages :=
    fun start => (admits_of_print success).print_eq
  have complete : Completes render false fs pages (run fs).files
      (run fs).written (run fs).skipped := completes_of_print success
  have treeAfter := complete.isTree tree placed
  refine ⟨⟨?_, complete.skipped_eq tree placed, ?_, ?_, ?_⟩, ?_, ?_⟩
  · have written := complete.written_eq tree placed
    rw [written]
    congr 1
    refine List.filter_congr fun path listed => ?_
    rw [Bool.eq_iff_iff, decide_eq_true_iff,
      Completes.mem_written_iff slugs direct tree complete]
    exact and_iff_right listed
  · intro path member
    obtain ⟨-, page, text, first, rendered, stands⟩ :=
      complete.exists_rendered_of_mem_written tree placed member
    have same : page.path = path := by simpa using List.find?_some first
    have named : IsNamed path :=
      same ▸ placed page (List.mem_of_find?_eq_some first)
    exact ⟨page, text, first, rendered,
      (treeAfter.node?_eq named).trans stands⟩
  · intro place node stood
    exact complete.keeps tree placed nofun stood
  · intro place node stands
    exact complete.get?_cases tree placed stands
  · intro count midway
    obtain ⟨laterWritten, laterSkipped, again⟩ :=
      complete.resume tree placed count
    obtain ⟨rendered, equal⟩ := again.writePages_eq
    rw [asWritten midway, equal]
    exact ⟨rfl, rfl⟩
  · have again : Completes render false (run fs).files pages (run fs).files
        [] (pages.map (·.path)) :=
      completes_of_all_stand treeAfter placed
        fun page member => complete.exists_of_mem tree placed member
    obtain ⟨rendered, equal⟩ := again.writePages_eq
    rw [asWritten (run fs).files, equal]
    exact ⟨rfl, rfl, rfl⟩

/-- Beside a page that exists, only the other one is written. -/
theorem print_unforced_completes_sales :
    let sales : Grouping := ⟨[("Sales",
      { queries := [⟨.query, "Sales", "Handler", "Stock", [], "", "", [],
          "Stock", "stock"⟩] })]⟩
    let fs : FileSystem := { entries := [
      (["docs"], .directory),
      (["docs", "_index.md"], .file "mine".toUTF8)] }
    let run :=
      print (fun template _ => .ok template.name) ⟨.flat, none⟩ sales
        "/docs" false
    (run fs).failure = none ∧ (run fs).written = ["/docs/sales.md"] ∧
      (run fs).skipped = ["/docs/_index.md"] ∧
      (run (run fs).files).written = [] := by
  intro sales fs run
  have success : (run fs).failure = none :=
    Option.isNone_iff_eq_none.mp (by decide +kernel)
  obtain ⟨completes, -, -, -, nothing⟩ :=
    print_unforced_completes (by decide +kernel) (by decide)
      (by decide +kernel) success
  exact ⟨success, completes.written.trans (by decide +kernel),
    completes.skipped.trans (by decide +kernel), nothing⟩

/-- A domain whose slug is the name of the page that links to the domains. -/
def indexShadow : Grouping :=
  ⟨[("_index.md",
    { commands := [⟨.command, "_index.md", "Handler", "Add", [], "", "", [],
        "Add", "add"⟩] })]⟩

def indexShadowRun : Run :=
  print (fun template _ => .ok template.name) ⟨.nested, some "1"⟩
    indexShadow "/docs" false {}

/--
The directory of a domain takes up the place of the page that links to the
domains: nothing stands there at first, but in the end the page is missing, so
what gets written is not exactly what was missing.
-/
theorem print_unforced_misses_index :
    indexShadow.SlugsAreNames ∧ IsDirect "/docs" ∧ FileSystem.IsTree {} ∧
      indexShadowRun.failure = none ∧
      FileSystem.pathExists {} "/docs/_index.md" = false ∧
      indexShadowRun.skipped = ["/docs/_index.md"] ∧
      indexShadowRun.files.node? "/docs/_index.md" = some .directory ∧
      ¬ IsCompletion (fun template _ => .ok template.name)
        (Page.all ⟨.nested, some "1"⟩ "/docs" indexShadow)
        (fun path => !FileSystem.pathExists {} path) {} indexShadowRun := by
  have directory :
      indexShadowRun.files.node? "/docs/_index.md" = some .directory := by
    decide +kernel
  refine ⟨by decide +kernel, by decide, by decide,
    Option.isNone_iff_eq_none.mp (by decide +kernel), by decide +kernel,
    by decide +kernel, directory, ?_⟩
  intro completes
  have listed : "/docs/_index.md" ∈ indexShadowRun.written := by
    rw [completes.written]
    decide +kernel
  obtain ⟨page, text, -, -, stands⟩ := completes.holds _ listed
  rw [directory] at stands
  cases stands

end Reference

end BusReference.Printing
