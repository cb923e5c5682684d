import Mathlib.Data.List.Find
import BusReference.Proofs.Printing.Place

/-!
# Refreshing the reference

A forced run clears the destination and writes every page.  What stands at a
place afterwards is a function of the pages alone wherever some page leads
there, so nothing that stood in the destination before leaves a trace, and two
refreshes from any files whatsoever agree on the whole destination.
-/

namespace BusReference.Printing

open BusReference.Files
open BusReference.Files.Path (IsDirect IsNamed way)

/-! ## What pages lead to -/

/-- The last of the pages that are to stand at a place. -/
def lastAt? (pages : List Page) (place : Location) : Option Page :=
  pages.reverse.find? (way ·.path == place)

/--
What stands at a place once all pages are written: the text of the last page
for it, or a directory on the way to some page.
-/
def standing
    (render : Renderer) (pages : List Page) (place : Location) :
    Option Node :=
  match lastAt? pages place with
  | some page =>
      (render page.template page.context).toOption.map (.file ·.toUTF8)
  | none =>
      if pages.any (place.isPrefixOf <| way ·.path) then some .directory
      else none

section Standing

variable
    {render : Renderer} {page : Page} {pages : List Page}
    {place : Location}

theorem lastAt?_cons (page : Page) (pages : List Page) (place : Location) :
    lastAt? (page :: pages) place =
      (lastAt? pages place).or
        (if way page.path = place then some page else none) := by
  rw [lastAt?, List.reverse_cons, List.find?_append, ← lastAt?]
  by_cases here : way page.path = place <;> simp [here]

theorem mem_of_lastAt?
    (last : lastAt? pages place = some page) :
    page ∈ pages ∧ way page.path = place := by
  constructor
  · simpa using List.mem_of_find?_eq_some last
  · simpa using List.find?_some last

theorem lastAt?_eq_none_iff :
    lastAt? pages place = none ↔ ∀ page ∈ pages, way page.path ≠ place := by
  simp [lastAt?]

/-- Some page is the last one for its place. -/
theorem exists_lastAt?_of_mem (listed : page ∈ pages) :
    ∃ last, lastAt? pages (way page.path) = some last := by
  refine Option.ne_none_iff_exists'.mp fun missing => ?_
  exact lastAt?_eq_none_iff.mp missing page listed rfl

/-- Only places on the way to a page are led to. -/
theorem exists_page_of_standing
    {node : Node} (stands : standing render pages place = some node) :
    ∃ page ∈ pages, place <+: way page.path ∧
      (place = way page.path ∨ node = .directory) := by
  rw [standing] at stands
  split at stands
  · rename_i page last
    obtain ⟨member, here⟩ := mem_of_lastAt? last
    exact ⟨page, member, here ▸ List.prefix_refl _, Or.inl here.symm⟩
  · split at stands
    · rename_i some
      obtain ⟨page, member, onWay⟩ := List.any_eq_true.mp some
      exact ⟨page, member, by simpa using onWay,
        Or.inr (Option.some.inj stands).symm⟩
    · cases stands

end Standing

/-! ## Complete runs that are forced -/

namespace Completes

variable
    {render : Renderer} {fs after : FileSystem}
    {pages : List Page} {written skipped : List String}

/-- A forced run skips nothing. -/
theorem report_of_forced
    (run : Completes render true fs pages after written skipped) :
    written = pages.map (·.path) ∧ skipped = [] := by
  induction run with
  | done fs => exact ⟨rfl, rfl⟩
  | skip kept rest ih => cases kept
  | write notKept rendered put rest ih =>
      obtain ⟨rfl, rfl⟩ := ih
      exact ⟨rfl, rfl⟩

/-- A forced run makes the text of every page. -/
theorem exists_text_of_forced
    (run : Completes render true fs pages after written skipped)
    {page : Page} (member : page ∈ pages) :
    ∃ text, render page.template page.context = .ok text := by
  induction run with
  | done fs => cases member
  | skip kept rest ih => cases kept
  | write notKept rendered put rest ih =>
      rcases List.mem_cons.mp member with rfl | later
      · exact ⟨_, rendered⟩
      · exact ih later

/--
After a forced run every place holds what the pages lead to, and what was there
before if they do not lead to the place.
-/
theorem get?_of_forced
    (run : Completes render true fs pages after written skipped)
    (tree : fs.IsTree) (placed : Placed pages) (place : Location) :
    after.get? place = (standing render pages place).or (fs.get? place) := by
  induction run with
  | done fs => rfl
  | skip kept rest ih => cases kept
  | @write fs middle after page pages written skipped text notKept rendered
      put rest ih =>
      obtain ⟨treeMiddle, stands⟩ := stands_of_put tree placed.head put
      have later := ih treeMiddle placed.tail
      rw [get?_of_put tree placed.head put] at later
      rcases last : lastAt? pages place with _ | other
      · by_cases here : way page.path = place
        · -- no later page stands here, so the file is not replaced
          have untouched := rest.keeps treeMiddle placed.tail
            (fun _ other member same =>
              lastAt?_eq_none_iff.mp last other member (same ▸ here))
            stands
          rw [← here, untouched, standing, here, lastAt?_cons, last,
            if_pos here]
          simp [rendered, Except.toOption]
        · rw [later, standing, standing, lastAt?_cons, last, if_neg here,
            if_neg (Ne.symm here), List.any_cons]
          by_cases others :
            pages.any (place.isPrefixOf <| way ·.path) = true
          · simp [others]
          · by_cases onWay : place <+: way page.path
            · simp [others, onWay]
            · simp [others, onWay]
      · obtain ⟨text', rendered'⟩ :=
          rest.exists_text_of_forced (mem_of_lastAt? last).1
        rw [later, standing, standing, lastAt?_cons, last]
        simp [rendered', Except.toOption]

/-- After a forced run the text of the last page for a place stands there. -/
theorem holds_last
    (run : Completes render true fs pages after written skipped)
    (tree : fs.IsTree) (placed : Placed pages)
    {page : Page} (listed : page ∈ pages) :
    ∃ last text, lastAt? pages (way page.path) = some last ∧
      render last.template last.context = .ok text ∧
      after.get? (way page.path) = some (.file text.toUTF8) := by
  obtain ⟨last, found⟩ := exists_lastAt?_of_mem listed
  obtain ⟨text, rendered⟩ :=
    run.exists_text_of_forced (mem_of_lastAt? found).1
  refine ⟨last, text, found, rendered, ?_⟩
  rw [run.get?_of_forced tree placed, standing, found]
  simp [rendered, Except.toOption]

end Completes

/-! ## The reference -/

section Reference

variable
    {render : Renderer} {edition : Edition} {grouping : Grouping}
    {destination : String}

/-- Pages that stand at one place have one path. -/
theorem path_eq_of_way_eq
    (slugs : grouping.SlugsAreNames) {page other : Page}
    (first : page ∈ Page.all edition destination grouping)
    (second : other ∈ Page.all edition destination grouping)
    (same : way page.path = way other.path) :
    page.path = other.path := by
  rcases Page.eq_or_hidesIndex_of_way_isPrefix slugs second first
    (same ▸ List.prefix_refl _) with equal | ⟨-, firstIsIndex⟩
  · exact equal
  · rcases Page.eq_or_hidesIndex_of_way_isPrefix slugs first second
      (same ▸ List.prefix_refl _) with equal | ⟨-, secondIsIndex⟩
    · exact equal.symm
    · rw [firstIsIndex, secondIsIndex]

/-- The last page for a path is the last one at the place of the path. -/
theorem lastAt?_way
    (slugs : grouping.SlugsAreNames) {page : Page}
    (listed : page ∈ Page.all edition destination grouping) :
    lastAt? (Page.all edition destination grouping) (way page.path) =
      (Page.all edition destination grouping).reverse.find?
        (·.path == page.path) := by
  refine List.find?_congr fun other member => ?_
  rw [List.mem_reverse] at member
  rw [Bool.eq_iff_iff, beq_iff_eq, beq_iff_eq]
  constructor
  · intro same
    exact path_eq_of_way_eq slugs member listed same
  · intro same
    rw [same]

/-- The exact effect of refreshing a destination with pages. -/
structure IsRefresh
    (render : Renderer) (pages : List Page) (destination : String)
    (fs : FileSystem) (run : Run) : Prop where
  /-- Every page is written. -/
  written : run.written = pages.map (·.path)
  skipped : run.skipped = []
  /-- A written path holds the text of the last page for it. -/
  holds : ∀ path ∈ run.written, ∃ page text,
    pages.reverse.find? (·.path == path) = some page ∧
      render page.template page.context = .ok text ∧
      run.files.node? path = some (.file text.toUTF8)
  /-- The directories on the way to a written path stand. -/
  leads : ∀ path ∈ run.written, ∀ place, place <+: way path →
    place ≠ way path → run.files.get? place = some .directory
  /-- Nothing else stands in the destination. -/
  contains : ∀ place node, way destination <+: place →
    run.files.get? place = some node →
      ∃ path ∈ run.written, place <+: way path ∧
        (place = way path ∨ node = .directory)
  /-- Elsewhere only directories on the way to the destination are new. -/
  outside : ∀ place, ¬ way destination <+: place →
    run.files.get? place = fs.get? place ∨
      place <+: way destination ∧ fs.get? place = none ∧
        run.files.get? place = some .directory

section Forced

variable
    (slugs : grouping.SlugsAreNames) (direct : IsDirect destination)
    {fs : FileSystem} (tree : fs.IsTree)
    (success :
      (print render edition grouping destination true fs).failure = none)
    {place : Location}

include slugs direct tree success

/--
What stands after a forced printing that succeeds: what the pages lead to, and
outside of the destination what stood there before.
-/
theorem get?_print_forced (place : Location) :
    (print render edition grouping destination true fs).files.get? place =
      (standing render (Page.all edition destination grouping) place).or
        (if place ≠ [] ∧ way destination <+: place then none
        else fs.get? place) := by
  have treeBase := tree.removeTree destination
  have effect := (completes_of_print success).get?_of_forced treeBase
    (Page.placed_all direct slugs) place
  have cleared := tree.get?_removeTree direct
    (removeTree_of_print_forced success) place
  exact effect.trans (congrArg _ cleared)

/-- In the destination stands only what the pages lead to. -/
theorem exists_page_of_print_forced
    {node : Node} (below : way destination <+: place)
    (found :
      (print render edition grouping destination true fs).files.get? place =
        some node) :
    ∃ page ∈ Page.all edition destination grouping,
      place <+: way page.path ∧
        (place = way page.path ∨ node = .directory) := by
  rw [get?_print_forced slugs direct tree success] at found
  rcases led : standing render (Page.all edition destination grouping)
    place with _ | node'
  · -- only the root can be left over
    have root : place = [] := by
      by_contra other
      rw [led, if_pos ⟨other, below⟩] at found
      cases found
    rw [led, if_neg (fun inside => inside.1 root), root,
      FileSystem.get?_root] at found
    refine ⟨Page.ofIndex edition destination grouping.inhabited, ?_,
      root ▸ List.nil_prefix, Or.inr (Option.some.inj found).symm⟩
    rw [Page.all_eq]
    exact List.mem_append_right _ List.mem_cons_self
  · rw [led] at found
    cases found
    exact exists_page_of_standing led

/-- Outside of the destination only directories on the way to it are new. -/
theorem outside_of_print_forced (away : ¬ way destination <+: place) :
    (print render edition grouping destination true fs).files.get? place =
        fs.get? place ∨
      place <+: way destination ∧ fs.get? place = none ∧
        (print render edition grouping destination true fs).files.get? place =
          some .directory := by
  have inDestination : ∀ page ∈ Page.all edition destination grouping,
      way destination <+: way page.path := by
    intro page listed
    obtain ⟨relative, -, below⟩ := Page.exists_below_of_mem_all slugs listed
    exact below ▸ List.prefix_append _ _
  have outside : ¬ (place ≠ [] ∧ way destination <+: place) :=
    fun inside => away inside.2
  have now := get?_print_forced slugs direct tree success place
  rw [if_neg outside] at now
  rcases led : standing render (Page.all edition destination grouping)
    place with _ | node
  · left
    rw [now, led]
    rfl
  · obtain ⟨page, listed, onWay, how⟩ := exists_page_of_standing led
    have above : place <+: way destination :=
      (List.prefix_or_prefix_of_prefix onWay
        (inDestination page listed)).resolve_right away
    have directory : node = .directory := by
      refine how.resolve_left ?_
      rintro rfl
      exact away (inDestination page listed)
    rw [led, directory] at now
    rcases stood : fs.get? place with _ | node'
    · exact Or.inr ⟨above, rfl, now⟩
    · left
      have cleared := tree.get?_removeTree direct
        (removeTree_of_print_forced success) place
      rw [if_neg outside, stood] at cleared
      refine (completes_of_print success).keeps (tree.removeTree destination)
        (Page.placed_all direct slugs) ?_ cleared
      rintro - other member rfl
      exact away (inDestination other member)

/-- A forced printing that succeeds refreshes the destination. -/
theorem isRefresh_of_print_forced :
    IsRefresh render (Page.all edition destination grouping) destination fs
      (print render edition grouping destination true fs) := by
  have placed : Placed (Page.all edition destination grouping) :=
    Page.placed_all direct slugs
  have treeBase := tree.removeTree destination
  have complete := completes_of_print success
  have treeAfter := complete.isTree treeBase placed
  obtain ⟨written, skipped⟩ := complete.report_of_forced
  refine ⟨written, skipped, ?_, ?_, ?_, fun place away =>
    outside_of_print_forced slugs direct tree success away⟩
  · intro path member
    rw [written] at member
    obtain ⟨page, listed, rfl⟩ := List.mem_map.mp member
    obtain ⟨last, text, found, rendered, file⟩ :=
      complete.holds_last treeBase placed listed
    refine ⟨last, text, ?_, rendered, ?_⟩
    · rw [← lastAt?_way slugs listed, found]
    · rw [treeAfter.node?_eq (placed page listed), file]
  · intro path member place onWay above
    rw [written] at member
    obtain ⟨page, listed, rfl⟩ := List.mem_map.mp member
    obtain ⟨last, text, -, -, file⟩ :=
      complete.holds_last treeBase placed listed
    exact treeAfter.directory_above file onWay above
  · intro place node below found
    obtain ⟨page, listed, how⟩ :=
      exists_page_of_print_forced slugs direct tree success below found
    rw [written]
    exact ⟨page.path, List.mem_map_of_mem listed, how⟩

end Forced

/--
Two forced printings that succeed leave the same destination, whatever stood in
it and around it, and each of them refreshes it.
-/
theorem print_forced_refreshes
    (slugs : grouping.SlugsAreNames) (direct : IsDirect destination)
    {first second : FileSystem}
    (treeFirst : first.IsTree) (treeSecond : second.IsTree)
    (firstSuccess :
      (print render edition grouping destination true first).failure = none)
    (secondSuccess :
      (print render edition grouping destination true second).failure =
        none) :
    let pages := Page.all edition destination grouping
    let run := print render edition grouping destination true
    (∀ place, way destination <+: place →
        (run first).files.get? place = (run second).files.get? place) ∧
      IsRefresh render pages destination first (run first) ∧
      IsRefresh render pages destination second (run second) := by
  intro pages run
  refine ⟨?_, isRefresh_of_print_forced slugs direct treeFirst firstSuccess,
    isRefresh_of_print_forced slugs direct treeSecond secondSuccess⟩
  intro place below
  rw [get?_print_forced slugs direct treeFirst firstSuccess,
    get?_print_forced slugs direct treeSecond secondSuccess]
  by_cases root : place = []
  · rw [root, FileSystem.get?_root, FileSystem.get?_root]
  · rw [if_pos ⟨root, below⟩, if_pos ⟨root, below⟩]

/-- A domain with one query. -/
def stock : Grouping :=
  ⟨[("Sales",
    { queries := [⟨.query, "Sales", "Handler", "Stock", [], "", "", [],
        "Stock", "stock"⟩] })]⟩

def printStock : FileSystem → Run :=
  print (fun template _ => .ok template.name) ⟨.nested, some "1"⟩ stock
    "/docs" true

/-- Files with an older reference in the destination. -/
def stale : FileSystem where
  entries := [
    (["docs"], .directory),
    (["docs", "old"], .directory),
    (["docs", "old", "page.md"], .file "old".toUTF8),
    (["docs", "_index.md"], .file "old".toUTF8),
    (["notes.md"], .file "mine".toUTF8)]

/-- An older reference leaves no trace. -/
theorem print_forced_refreshes_stale :
    (printStock stale).failure = none ∧ (printStock {}).failure = none ∧
      (∀ place, [Name.text "docs"] <+: place →
        (printStock stale).files.get? place =
          (printStock {}).files.get? place) ∧
      (printStock stale).skipped = [] := by
  have staleSuccess : (printStock stale).failure = none :=
    Option.isNone_iff_eq_none.mp (by decide +kernel)
  have emptySuccess : (printStock {}).failure = none :=
    Option.isNone_iff_eq_none.mp (by decide +kernel)
  obtain ⟨same, refresh, -⟩ :=
    print_forced_refreshes (by decide +kernel) (by decide)
      (by decide +kernel) (by decide) staleSuccess emptySuccess
  have destination : way "/docs" = [.text "docs"] := by decide
  rw [destination] at same
  exact ⟨staleSuccess, emptySuccess, same, refresh.skipped⟩

end Reference

end BusReference.Printing
