import BusReference.Proofs.Files.Tree
import BusReference.Proofs.Files.Way

/-!
# What paths lead to

A path names a place: from where it is followed, each name leads down and two
dots lead up.  It can be followed to that place if there are directories all
along.  That is so once the directories of a path were created, and it stays so
while files are written, since no directory gives way to a file.
-/

namespace BusReference.Files.FileSystem

open BusReference.Files.Path

/-! ## Ways through directories -/

theorem follow_append
    (fs : FileSystem) (place : Location) (left right : List Name) :
    fs.follow place (left ++ right) =
      match fs.follow place left with
      | .error error => .error error
      | .ok next => fs.follow next right := by
  induction left generalizing place with
  | nil => rfl
  | cons segment left ih =>
      simp only [List.cons_append, follow]
      cases fs.step place segment with
      | error error => rfl
      | ok next => exact ih next

/-- Directories stand all along the way that names take from a place. -/
def Leads (fs : FileSystem) (place : Location) (names : List Name) : Prop :=
  ∀ above, above <+: names → fs.get? (resolve place above) = some .directory

section Leads

variable
    {fs after : FileSystem} {place : Location} {name : Name}
    {names : List Name}

theorem Leads.start (leads : fs.Leads place names) :
    fs.get? place = some .directory :=
  leads [] List.nil_prefix

theorem leads_nil (here : fs.get? place = some .directory) :
    fs.Leads place [] := by
  intro above onWay
  rw [List.prefix_nil.mp onWay]
  exact here

theorem leads_cons :
    fs.Leads place (name :: names) ↔
      fs.get? place = some .directory ∧
        fs.Leads (resolve place [name]) names := by
  constructor
  · intro leads
    refine ⟨leads.start, ?_⟩
    intro above onWay
    rw [← resolve_append]
    exact leads (name :: above) (List.cons_prefix_cons.mpr ⟨rfl, onWay⟩)
  · rintro ⟨here, leads⟩ above onWay
    cases above with
    | nil => exact here
    | cons first above =>
        obtain ⟨rfl, later⟩ := List.cons_prefix_cons.mp onWay
        have further := leads above later
        rwa [← resolve_append] at further

/-- A way goes on to exist while no directory goes away. -/
theorem Leads.keeps
    (leads : fs.Leads place names)
    (kept : ∀ other, fs.get? other = some .directory →
      after.get? other = some .directory) :
    after.Leads place names :=
  fun above onWay => kept _ (leads above onWay)

/-- A way through directories is followed to its end. -/
theorem Leads.follow_eq_ok
    {segments : List Name} (leads : fs.Leads place (wayOf segments)) :
    fs.follow place segments = .ok (resolve place (wayOf segments)) := by
  induction segments generalizing place with
  | nil => rfl
  | cons segment segments ih =>
      have here := leads.start
      by_cases idle : isIdle segment = true
      · rw [wayOf_cons, if_pos idle] at leads ⊢
        simp only [follow, step, here, idle, if_true]
        exact ih leads
      · rw [wayOf_cons, if_neg idle] at leads ⊢
        obtain ⟨-, later⟩ := leads_cons.mp leads
        by_cases up : segment = ".."
        · rw [resolve, if_pos up] at later ⊢
          simp only [follow, step, here, up, if_true]
          exact ih later
        · rw [resolve, if_neg up] at later ⊢
          have next := later.start
          rw [resolve] at next
          simp only [follow, step, here, idle, up, next, if_false, if_true,
            Option.isSome_some, Bool.false_eq_true]
          exact ih later

end Leads

/-! ## The place of a path -/

theorem origin_ofText (fs : FileSystem) (path : String) :
    fs.origin path = if isAbsolute path then [] else fs.workingDirectory := by
  rw [origin, FilePath.isAbsolute_ofText]

theorem locate_ofText (fs : FileSystem) (path : String) :
    fs.locate path =
      if path.isEmpty then .error .missing
      else fs.follow (fs.origin path) (segments path) := by
  rw [locate, FilePath.isEmpty_ofText]
  rfl

/-- The place that a path names. -/
def placeOf (fs : FileSystem) (path : String) : Location :=
  resolve (fs.origin path) (way path)

section Place

variable {fs : FileSystem} {base name path : String}

theorem placeOf_of_isAbsolute
    (absolute : isAbsolute path = true) : fs.placeOf path = reach path := by
  rw [placeOf, origin_ofText, if_pos absolute, reach]

theorem origin_join (clean : '/' ∉ name.toList) :
    fs.origin (join base name) = fs.origin base := by
  rw [origin_ofText, origin_ofText, isAbsolute_join_eq clean]

theorem placeOf_join (named : IsName name) :
    fs.placeOf (join base name) = fs.placeOf base ++ [.text name] := by
  rw [placeOf, placeOf, origin_join named.2.2.2, way_join named,
    resolve_append]
  exact resolve_of_calm
    (fun other member => List.mem_singleton.mp member ▸ named.ne_up) _

theorem placeOf_parent_join (clean : '/' ∉ name.toList) :
    fs.placeOf (parent (join base name)) = fs.placeOf base := by
  rw [placeOf, placeOf, origin_ofText, origin_ofText,
    isAbsolute_parent_join clean, way_parent_join clean]

/-- Where segments are followed to an end, it is the place that they name. -/
theorem eq_resolve_of_follow_eq_ok
    {place target : Location} {segments : List Name}
    (followed : fs.follow place segments = .ok target) :
    target = resolve place (wayOf segments) := by
  induction segments generalizing place with
  | nil => exact (Except.ok.inj followed).symm
  | cons segment segments ih =>
      rw [follow] at followed
      rcases stepped : fs.step place segment with error | next
      · rw [stepped] at followed
        cases followed
      · rw [stepped] at followed
        rw [ih followed, wayOf_cons]
        rw [step] at stepped
        split at stepped
        · cases stepped
        · cases stepped
        · split at stepped
          · rename_i idle
            cases stepped
            rw [if_pos idle]
          · rename_i idle
            rw [if_neg idle, resolve]
            split at stepped
            · rename_i up
              cases stepped
              rw [if_pos up]
            · rename_i up
              rw [if_neg up]
              split at stepped
              · cases stepped
                rfl
              · cases stepped

/-- What is found at the end of a path stands at its place. -/
theorem get?_placeOf_of_node?
    {node : Node} (found : fs.node? path = some node) :
    fs.get? (fs.placeOf path) = some node := by
  rw [node?] at found
  rcases located : fs.locate path with error | target
  · rw [located] at found
    cases found
  · rw [located] at found
    rw [locate_ofText] at located
    split at located
    · cases located
    · rw [placeOf, way, ← eq_resolve_of_follow_eq_ok located]
      exact found

/-- A text that stands at the end of a path can be read. -/
theorem readText_of_node?
    {text : String} (stands : fs.node? path = some (.file text.toUTF8)) :
    fs.readText path = .ok text := by
  rw [node?] at stands
  rw [readText]
  split at stands
  · cases stands
  · have decoded : String.fromUTF8? text.toUTF8 = some text :=
      dif_pos text.isValidUTF8
    rw [readAt, stands]
    simp only [decoded]

/-- At the end of a way through directories stands what stands there. -/
theorem node?_eq_get?_placeOf
    (joined : IsJoined path)
    (leads : fs.Leads (fs.origin path) (way path).dropLast) :
    fs.node? path = fs.get? (fs.placeOf path) := by
  obtain ⟨base, name, rfl, named⟩ := joined
  rw [way_join named, List.dropLast_concat] at leads
  have above : fs.follow (fs.origin (join base name))
      (FilePath.ofText base).stem = .ok (fs.placeOf base) := by
    rw [← wayOf_stem] at leads
    rw [leads.follow_eq_ok, wayOf_stem, origin_join named.2.2.2, placeOf]
  have directory : fs.get? (fs.placeOf base) = some .directory := by
    rw [placeOf, ← origin_join named.2.2.2]
    exact leads _ (List.prefix_refl _)
  have nonempty : (join base name).isEmpty = false := by
    rw [join_of_clean named.2.2.2]
    simp [named.1]
  rw [node?, locate_ofText, nonempty, segments_join named.2.2.2,
    follow_append, above, placeOf_join named]
  by_cases stands : (fs.get? (fs.placeOf base ++ [.text name])).isSome = true
  · simp [follow, step, directory, named.not_idle, named.2.2.1, stands]
  · simp only [Bool.not_eq_true, Option.isSome_eq_false_iff,
      Option.isNone_iff_eq_none] at stands
    simp [follow, step, directory, named.not_idle, named.2.2.1, stands]

theorem node?_eq_of_leads
    (ends : EndsInName path) (leads : fs.Leads [] (way path).dropLast) :
    fs.node? path = fs.get? (reach path) := by
  obtain ⟨joined, absolute⟩ := ends.joined
  have start : fs.origin path = [] := by rw [origin_ofText, if_pos absolute]
  rw [node?_eq_get?_placeOf joined (start ▸ leads),
    placeOf_of_isAbsolute absolute]

end Place

section Join

variable
    {fs : FileSystem} {base : FilePath} {name : Name} {place : Location}

/-- Where a path leads, its stem leads too. -/
theorem follow_stem (located : fs.locate base = .ok place) :
    fs.follow (fs.origin base) base.stem = .ok place := by
  rw [locate] at located
  split at located
  · cases located
  · rcases base.stem_cases with ⟨whole, -⟩ | closed
    · rw [whole]
      exact located
    · rw [closed, follow_append] at located
      cases followed : fs.follow (fs.origin base) base.stem with
      | error error =>
          rw [followed] at located
          cases located
      | ok next =>
          rw [followed] at located
          -- the empty segment stays where it is met
          have idle : isIdle "" = true := rfl
          simp only [follow, step, idle, if_true] at located
          rcases node : fs.get? next with _ | _ | content <;>
            simp only [node] at located
          · cases located
          · exact located
          · cases located

/-- A name in a directory is reached by joining it to a path that leads
there. -/
theorem locate_join
    {node : Node} (named : IsName name)
    (located : fs.locate base = .ok place)
    (here : fs.get? place = some .directory)
    (stands : fs.get? (place ++ [name]) = some node) :
    fs.locate (base.join name) = .ok (place ++ [name]) := by
  have nonempty : (base.join name).isEmpty = false := by
    rw [FilePath.isEmpty, FilePath.segments_join, beq_eq_false_iff_ne]
    exact fun same => named.ne_empty (by simpa using congrArg List.getLast? same)
  have sameOrigin : fs.origin (base.join name) = fs.origin base := by
    rw [origin, origin, FilePath.isAbsolute_join]
  rw [locate, nonempty, FilePath.segments_join, sameOrigin, follow_append,
    follow_stem located]
  simp [follow, step, here, named.not_idle, named.ne_up, stands]

end Join

/-! ## Creating directories -/

/--
Creating directories keeps every node, and ends at the place that the segments
name.
-/
theorem createFrom_places
    {fs after : FileSystem} {place target : Location} {created : Bool}
    {segments : List Name}
    (done : fs.createFrom created place segments = (after, .ok target)) :
    target = resolve place (wayOf segments) ∧
      after.workingDirectory = fs.workingDirectory ∧
      ∀ other node, fs.get? other = some node →
        after.get? other = some node := by
  fun_induction FileSystem.createFrom fs created place segments with
  | case1 fs created place =>
      cases done
      exact ⟨rfl, rfl, fun _ _ stood => stood⟩
  | case2 fs created place segment segments idle ih =>
      rw [wayOf_cons, if_pos idle]
      exact ih done
  | case3 fs created place segments notIdle ih =>
      rw [wayOf_cons, if_neg notIdle, resolve, if_pos rfl]
      exact ih done
  | case4 fs created place segment segments notIdle notUp next stands ih =>
      rw [wayOf_cons, if_neg notIdle, resolve, if_neg notUp]
      exact ih done
  | case5 => cases done
  | case6 fs created place segment segments notIdle notUp next missing ih =>
      -- the directory is missing and is put in its place
      rw [wayOf_cons, if_neg notIdle, resolve, if_neg notUp]
      obtain ⟨reached, sameStart, kept⟩ := ih done
      refine ⟨reached, sameStart, fun other node stood => ?_⟩
      refine kept other node ?_
      rw [get?_put (by simp [next]), if_neg, stood]
      rintro rfl
      rw [missing] at stood
      cases stood

/-- Once directories were created the way leads through them. -/
theorem IsTree.createFrom_leads
    {fs after : FileSystem} (tree : fs.IsTree)
    {place target : Location} {segments : List Name}
    (here : fs.get? place = some .directory) {created : Bool}
    (done : fs.createFrom created place segments = (after, .ok target)) :
    after.IsTree ∧ after.Leads place (wayOf segments) := by
  have stands := (createFrom_places done).2.2 _ _ here
  fun_induction FileSystem.createFrom fs created place segments with
  | case1 fs created place =>
      cases done
      exact ⟨tree, leads_nil here⟩
  | case2 fs created place segment segments idle ih =>
      rw [wayOf_cons, if_pos idle]
      exact ih tree here done stands
  | case3 fs created place segments notIdle ih =>
      rw [wayOf_cons, if_neg notIdle, leads_cons, resolve, if_pos rfl]
      have above := tree.directory_parent here
      obtain ⟨treeAfter, leads⟩ :=
        ih tree above done ((createFrom_places done).2.2 _ _ above)
      exact ⟨treeAfter, stands, leads⟩
  | case4 fs created place segment segments notIdle notUp next found ih =>
      rw [wayOf_cons, if_neg notIdle, leads_cons, resolve, if_neg notUp]
      obtain ⟨treeAfter, leads⟩ :=
        ih tree found done ((createFrom_places done).2.2 _ _ found)
      exact ⟨treeAfter, stands, leads⟩
  | case5 => cases done
  | case6 fs created place segment segments notIdle notUp next missing ih =>
      -- the directory is missing and is put in its place
      rw [wayOf_cons, if_neg notIdle, leads_cons, resolve, if_neg notUp]
      have notRoot : next ≠ [] := by simp [next]
      have added := get?_put_self notRoot fs .directory
      obtain ⟨treeAfter, leads⟩ :=
        ih (tree.putDirectory segment here) added done
          ((createFrom_places done).2.2 _ _ added)
      exact ⟨treeAfter, stands, leads⟩

/-! ## Writing files -/

/-- A file is written by creating directories and putting it into its place. -/
theorem exists_middle_of_write
    {fs after : FileSystem} {path text : String} (joined : IsJoined path)
    (done : fs.write path text = (after, .ok ())) :
    ∃ middle target,
      fs.createDirectories (parent path) = (middle, .ok target) ∧
        fs.placeOf path ≠ [] ∧
        middle.get? (fs.placeOf path) ≠ some .directory ∧
        after = middle.put (fs.placeOf path) (.file text.toUTF8) := by
  obtain ⟨base, name, rfl, named⟩ := joined
  rw [FileSystem.write] at done
  rcases made : fs.createDirectories (parent (join base name))
    with ⟨middle, error | target⟩
  · simp [made] at done
  · have reached : target = fs.placeOf base := by
      rw [← placeOf_parent_join named.2.2.2]
      exact (createFrom_places made).1
    simp only [made, replaceFile, reached, fileName_join named.2.2.2] at done
    rw [placeOf_join named]
    refine ⟨middle, target, rfl, by simp, ?_⟩
    rcases node : middle.get? (fs.placeOf base ++ [.text name]) with _ | _ | content
    · exact ⟨by simp [node], by simpa [node] using (congrArg Prod.fst done).symm⟩
    · simp [node] at done
    · exact ⟨by simp [node], by simpa [node] using (congrArg Prod.fst done).symm⟩

/-- A file that was written stands at its place, and at every other place there
is still what was there. -/
theorem write_places
    {fs after : FileSystem} {path text : String} (joined : IsJoined path)
    (done : fs.write path text = (after, .ok ())) :
    after.workingDirectory = fs.workingDirectory ∧
      after.get? (fs.placeOf path) = some (.file text.toUTF8) ∧
      fs.get? (fs.placeOf path) ≠ some .directory ∧
      ∀ place node, place ≠ fs.placeOf path →
        fs.get? place = some node → after.get? place = some node := by
  obtain ⟨middle, target, made, notRoot, free, rfl⟩ :=
    exists_middle_of_write joined done
  obtain ⟨-, sameStart, kept⟩ := createFrom_places made
  refine ⟨sameStart, get?_put_self notRoot middle _,
    fun stood => free (kept _ _ stood), ?_⟩
  intro place node apart stood
  rw [get?_put notRoot, if_neg apart]
  exact kept place node stood

/-- Directories stay directories and files stay files. -/
structure KeepsKinds (fs after : FileSystem) : Prop where
  /-- Relative paths are followed from the same place. -/
  workingDirectory : after.workingDirectory = fs.workingDirectory
  directory : ∀ place, fs.get? place = some .directory →
    after.get? place = some .directory
  file : ∀ place content, fs.get? place = some (.file content) →
    ∃ other, after.get? place = some (.file other)

namespace KeepsKinds

variable {fs middle after : FileSystem} {path : String}

theorem refl (fs : FileSystem) : fs.KeepsKinds fs where
  workingDirectory := rfl
  directory _ stood := stood
  file _ content stood := ⟨content, stood⟩

theorem trans
    (first : fs.KeepsKinds middle) (second : middle.KeepsKinds after) :
    fs.KeepsKinds after where
  workingDirectory := second.workingDirectory.trans first.workingDirectory
  directory place stood := second.directory place (first.directory place stood)
  file place content stood := by
    obtain ⟨other, stands⟩ := first.file place content stood
    exact second.file place other stands

theorem of_write
    {text : String} (joined : IsJoined path)
    (done : fs.write path text = (after, .ok ())) : fs.KeepsKinds after := by
  obtain ⟨sameStart, stands, free, kept⟩ := write_places joined done
  refine ⟨sameStart, fun place stood => ?_, fun place content stood => ?_⟩
  · refine kept place _ ?_ stood
    rintro rfl
    exact free stood
  · by_cases here : place = fs.placeOf path
    · exact ⟨_, here ▸ stands⟩
    · exact ⟨content, kept place _ here stood⟩

theorem origin_eq (keeps : fs.KeepsKinds after) (path : String) :
    after.origin path = fs.origin path := by
  rw [origin, origin, keeps.workingDirectory]

theorem placeOf_eq (keeps : fs.KeepsKinds after) (path : String) :
    after.placeOf path = fs.placeOf path := by
  rw [placeOf, placeOf, keeps.origin_eq]

/-- What stands at a place is not gone. -/
theorem exists_of_get?
    (keeps : fs.KeepsKinds after) {place : Location} {node : Node}
    (stood : fs.get? place = some node) :
    ∃ other, after.get? place = some other := by
  cases node with
  | directory => exact ⟨_, keeps.directory place stood⟩
  | file content =>
      obtain ⟨other, stands⟩ := keeps.file place content stood
      exact ⟨_, stands⟩

theorem step_eq_ok
    (keeps : fs.KeepsKinds after) {place next : Location} {segment : Name}
    (stepped : fs.step place segment = .ok next) :
    after.step place segment = .ok next := by
  rw [step] at stepped ⊢
  split at stepped
  · cases stepped
  · cases stepped
  · rename_i here
    rw [keeps.directory place here]
    split at stepped
    · rename_i idle
      rw [if_pos idle]
      exact stepped
    · rename_i idle
      split at stepped
      · rename_i up
        rw [if_neg idle, if_pos up]
        exact stepped
      · rename_i up
        split at stepped
        · rename_i stands
          obtain ⟨node, stood⟩ := Option.isSome_iff_exists.mp stands
          obtain ⟨other, still⟩ := keeps.exists_of_get? stood
          rw [if_neg idle, if_neg up, still, Option.isSome_some, if_pos rfl]
          exact stepped
        · cases stepped

theorem follow_eq_ok
    (keeps : fs.KeepsKinds after) {place target : Location}
    {segments : List Name} (followed : fs.follow place segments = .ok target) :
    after.follow place segments = .ok target := by
  induction segments generalizing place with
  | nil => exact followed
  | cons segment segments ih =>
      rw [follow] at followed ⊢
      rcases stepped : fs.step place segment with error | next
      · rw [stepped] at followed
        cases followed
      · rw [stepped] at followed
        rw [keeps.step_eq_ok stepped]
        exact ih followed

/-- A path that leads somewhere still leads to its place. -/
theorem node?_eq_of_exists
    (keeps : fs.KeepsKinds after) (found : fs.pathExists path = true) :
    after.node? path = after.get? (after.placeOf path) := by
  rw [pathExists, node?] at found
  rcases located : fs.locate path with error | target
  · rw [located] at found
    cases found
  · rw [locate_ofText] at located
    split at located
    · cases located
    · rename_i nonempty
      have still := keeps.follow_eq_ok located
      rw [node?, locate_ofText, if_neg nonempty, keeps.origin_eq, still,
        keeps.placeOf_eq, placeOf, way, ← eq_resolve_of_follow_eq_ok located]

end KeepsKinds

/-- Once a file is written, its path leads to it through directories. -/
theorem IsTree.write_leads
    {fs after : FileSystem} (tree : fs.IsTree)
    {path text : String} (joined : IsJoined path)
    (here : fs.get? (fs.origin path) = some .directory)
    (done : fs.write path text = (after, .ok ())) :
    after.IsTree ∧ after.Leads (fs.origin path) (way path).dropLast := by
  obtain ⟨middle, target, made, notRoot, free, rfl⟩ :=
    exists_middle_of_write joined done
  obtain ⟨base, name, rfl, named⟩ := joined
  have sameOrigin : fs.origin (parent (join base name)) =
      fs.origin (join base name) := by
    rw [origin_ofText, origin_ofText, isAbsolute_parent_join named.2.2.2,
      isAbsolute_join_eq named.2.2.2]
  rw [createDirectories, sameOrigin] at made
  obtain ⟨treeMiddle, leads⟩ := tree.createFrom_leads here made
  rw [← way, way_parent_join named.2.2.2] at leads
  have above : middle.get? (fs.placeOf base) = some .directory := by
    rw [placeOf, ← origin_join named.2.2.2]
    exact leads _ (List.prefix_refl _)
  rw [placeOf_join named] at notRoot free ⊢
  rw [way_join named, List.dropLast_concat]
  refine ⟨treeMiddle.put notRoot (by simpa using above) (Or.inr free), ?_⟩
  refine leads.keeps fun other stood => ?_
  rw [get?_put notRoot, if_neg, stood]
  rintro rfl
  exact free stood

/--
Once a file is written to an absolute path, the path leads to it through
directories, and at every other place there is still what was there.
-/
theorem IsTree.write_reaches
    {fs after : FileSystem} (tree : fs.IsTree)
    {path text : String} (ends : EndsInName path)
    (done : fs.write path text = (after, .ok ())) :
    after.IsTree ∧ after.Leads [] (way path).dropLast ∧
      after.get? (reach path) = some (.file text.toUTF8) ∧
      fs.get? (reach path) ≠ some .directory ∧
      ∀ place node, place ≠ reach path →
        fs.get? place = some node → after.get? place = some node := by
  obtain ⟨joined, absolute⟩ := ends.joined
  have start : fs.origin path = [] := by rw [origin_ofText, if_pos absolute]
  obtain ⟨treeAfter, leads⟩ :=
    tree.write_leads joined (by rw [start]; exact get?_root fs) done
  obtain ⟨-, stands, free, kept⟩ := write_places joined done
  rw [placeOf_of_isAbsolute absolute] at stands free kept
  exact ⟨treeAfter, start ▸ leads, stands, free, kept⟩

/-! ## Removing trees -/

/-- Clearing a place removes everything below it. -/
theorem get?_clear
    (fs : FileSystem) (place other : Location) :
    (fs.clear place).get? other =
      if other ≠ place ∧ place <+: other then none else fs.get? other := by
  by_cases root : other = []
  · subst root
    have kept : ¬ (([] : Location) ≠ place ∧ place <+: []) :=
      fun below => below.1 (List.prefix_nil.mp below.2).symm
    rw [if_neg kept, get?_root, get?_root]
  · rw [get?_of_ne_root root, get?_of_ne_root root, clear,
      find?_filter_place _ (fun p => p == place || !place.isPrefixOf p)]
    by_cases here : other = place
    · simp [here]
    · by_cases below : place <+: other
      · have inside := List.isPrefixOf_iff_prefix.mpr below
        simp [here, below, inside]
      · have outside : place.isPrefixOf other = false := by
          rw [Bool.eq_false_iff]
          exact fun inside => below (List.isPrefixOf_iff_prefix.mp inside)
        simp [below, outside]

theorem IsTree.clear
    {fs : FileSystem} (tree : fs.IsTree) (place : Location) :
    (fs.clear place).IsTree := by
  rw [isTree_iff]
  intro lower node stands
  rw [get?_clear] at stands ⊢
  split at stands
  · cases stands
  · rename_i kept
    rw [if_neg, tree.directory_parent stands]
    rintro ⟨apart, below⟩
    have further := below.trans lower.dropLast_prefix
    by_cases here : lower = place
    · -- a place is not below the directory that it stands in
      subst here
      exact apart (below.eq_of_length_le (by simp)).symm
    · exact kept ⟨here, further⟩

/-- Whatever a path is made of, removing it leaves a tree. -/
theorem IsTree.removeTree
    {fs : FileSystem} (tree : fs.IsTree) (path : String) :
    (fs.removeTree path).1.IsTree := by
  rw [FileSystem.removeTree]
  split
  · exact tree
  · exact tree
  · split
    · split
      · exact tree.clear _
      · exact tree.clear _
      · exact tree.erase _
    · exact tree

end BusReference.Files.FileSystem
