import BusReference.Proofs.Files.Reach

/-!
# What changes do to a tree

In a tree a direct path leads to its way.  On this footing every change is
described by the nodes before and after it: creating directories adds those
missing on the way and nothing else, writing a file changes in addition the
one place of the file, and removing a tree takes away a place with everything
below it.  A change that fails has at most added directories.
-/

namespace BusReference.Files.FileSystem

open BusReference.Files.Path

/-! ## Following direct paths -/

section Follow

variable {fs : FileSystem} {place target : Location} {segments : List Name}

/-- In a tree the way to a directory leads through directories. -/
theorem IsTree.leads
    (tree : fs.IsTree) {names : List Name}
    (calm : ∀ name ∈ names, name ≠ "..")
    (stands : fs.get? (place ++ names) = some .directory) :
    fs.Leads place names := by
  rintro above ⟨rest, rfl⟩
  rw [resolve_of_calm fun name member =>
    calm name (List.mem_append_left _ member)]
  by_cases last : rest = []
  · simpa [last] using stands
  · refine tree.directory_above stands ⟨rest, by simp⟩ ?_
    simpa using Ne.symm last

/-- A way through directories can be followed to its end. -/
theorem IsTree.follow_eq_ok
    (tree : fs.IsTree)
    (calm : ∀ segment ∈ segments, segment ≠ "..")
    (stands : fs.get? (place ++ wayOf segments) = some .directory) :
    fs.follow place segments = .ok (place ++ wayOf segments) := by
  rw [(tree.leads (calm_wayOf calm) stands).follow_eq_ok,
    resolve_of_calm (calm_wayOf calm)]

/-- Calm segments lead to the end of their way, unless something on the way is
missing or is a file. -/
theorem follow_cases
    (calm : ∀ segment ∈ segments, segment ≠ "..")
    (here : (fs.get? place).isSome = true) :
    (fs.follow place segments = .ok (place ++ wayOf segments) ∧
        (fs.get? (place ++ wayOf segments)).isSome = true) ∨
      (fs.follow place segments = .error .missing ∧
        ∃ above, above <+: place ++ wayOf segments ∧
          fs.get? above = none) ∨
      fs.follow place segments = .error .notDirectory := by
  induction segments generalizing place with
  | nil => exact Or.inl (by simp [follow, here])
  | cons segment segments ih =>
      have calmLater := fun other member =>
        calm other (List.mem_cons_of_mem _ member)
      have notUp := calm segment List.mem_cons_self
      rcases node : fs.get? place with _ | _ | content
      · simp [node] at here
      · by_cases idle : isIdle segment = true
        · simp only [follow, step, node, idle, if_true]
          rw [wayOf_cons, if_pos idle]
          exact ih calmLater here
        · rw [wayOf_cons, if_neg idle, List.append_cons]
          simp only [follow, step, node, idle, notUp, if_false,
            Bool.false_eq_true]
          by_cases stands : (fs.get? (place ++ [segment])).isSome = true
          · simp only [stands, if_true]
            exact ih calmLater stands
          · simp only [stands]
            exact Or.inr (Or.inl ⟨rfl, place ++ [segment],
              List.prefix_append _ _, by simpa using stands⟩)
      · exact Or.inr (Or.inr (by simp only [follow, step, node]))

/-- Following calm segments leads along their way. -/
theorem eq_of_follow_eq_ok
    (calm : ∀ segment ∈ segments, segment ≠ "..")
    (here : (fs.get? place).isSome = true)
    (followed : fs.follow place segments = .ok target) :
    target = place ++ wayOf segments ∧ (fs.get? target).isSome = true := by
  rcases follow_cases calm here with
    ⟨reached, stands⟩ | ⟨missing, -⟩ | blocked
  · rw [reached] at followed
    cases followed
    exact ⟨rfl, stands⟩
  · rw [missing] at followed
    cases followed
  · rw [blocked] at followed
    cases followed

/-- If calm segments lead to something missing, nothing is at their end. -/
theorem IsTree.get?_of_follow_missing
    (tree : fs.IsTree)
    (calm : ∀ segment ∈ segments, segment ≠ "..")
    (here : (fs.get? place).isSome = true)
    (followed : fs.follow place segments = .error .missing) :
    fs.get? (place ++ wayOf segments) = none := by
  rcases follow_cases calm here with
    ⟨reached, -⟩ | ⟨-, above, onWay, absent⟩ | blocked
  · rw [reached] at followed
    cases followed
  · exact tree.get?_below_of_none absent onWay
  · rw [blocked] at followed
    cases followed

end Follow

section Locate

variable {fs : FileSystem} {path : String} {target : Location}

theorem locate_of_isDirect (direct : IsDirect path) :
    fs.locate path = fs.follow [] (Path.segments path) := by
  simp [locate_ofText, origin_ofText, direct.1, ne_empty_of_isAbsolute direct.1]

theorem IsTree.locate_eq_ok
    (tree : fs.IsTree) (direct : IsDirect path)
    (stands : fs.get? (way path) = some .directory) :
    fs.locate path = .ok (way path) := by
  rw [locate_of_isDirect direct]
  exact tree.follow_eq_ok direct.no_climb stands

theorem eq_of_locate_eq_ok
    (direct : IsDirect path) (located : fs.locate path = .ok target) :
    target = way path ∧ (fs.get? target).isSome = true := by
  rw [locate_of_isDirect direct] at located
  exact eq_of_follow_eq_ok direct.no_climb (by simp) located

theorem IsTree.get?_of_locate_missing
    (tree : fs.IsTree) (direct : IsDirect path)
    (missing : fs.locate path = .error .missing) :
    fs.get? (way path) = none := by
  rw [locate_of_isDirect direct] at missing
  exact tree.get?_of_follow_missing direct.no_climb (by simp) missing

/-- A path that ends in a name leads to its way, if to anything. -/
theorem IsTree.node?_eq
    (tree : fs.IsTree) (named : IsNamed path) :
    fs.node? path = fs.get? (way path) := by
  rw [node?]
  cases located : fs.locate path with
  | ok target =>
      rw [(eq_of_locate_eq_ok named.direct located).1]
  | error error =>
      cases stands : fs.get? (way path) with
      | none => rfl
      | some node =>
          obtain ⟨above, split, sameWay, calm, isName⟩ := named.segments_eq
          have parent := tree.directory_parent stands
          rw [named.dropLast_way, ← sameWay] at parent
          have reached : fs.follow [] above = .ok (wayOf above) :=
            tree.follow_eq_ok calm parent
          have last : fs.get? (wayOf above ++ [.text (fileName path)]) =
              some node := by
            rw [sameWay, ← named.way_eq, stands]
          rw [locate_of_isDirect named.direct, split, follow_append,
            reached] at located
          simp [follow, step, parent, last, isName.not_idle,
            isName.2.2.1] at located

theorem IsTree.pathExists_eq
    (tree : fs.IsTree) (named : IsNamed path) :
    fs.pathExists path = (fs.get? (way path)).isSome := by
  rw [pathExists, tree.node?_eq named]

end Locate

/-! ## Creating directories -/

/--
All that `after` has and `before` has not are directories on the way to
`target`.
-/
def GainsDirectories
    (before after : FileSystem) (target : Location) : Prop :=
  ∀ place,
    after.get? place = before.get? place ∨
      before.get? place = none ∧
        after.get? place = some .directory ∧ place <+: target

namespace GainsDirectories

variable {before middle after : FileSystem} {target : Location}

theorem refl (fs : FileSystem) (target : Location) :
    GainsDirectories fs fs target :=
  fun _ => Or.inl rfl

theorem trans
    (first : GainsDirectories before middle target)
    (second : GainsDirectories middle after target) :
    GainsDirectories before after target := by
  intro place
  rcases first place with same | ⟨absent, added, onWay⟩
  · rw [← same]
    exact second place
  · rcases second place with same | ⟨absentLater, -, -⟩
    · exact Or.inr ⟨absent, same.trans added, onWay⟩
    · rw [added] at absentLater
      cases absentLater

theorem put
    {fs : FileSystem} {place : Location}
    (notRoot : place ≠ []) (absent : fs.get? place = none)
    (onWay : place <+: target) :
    GainsDirectories fs (fs.put place .directory) target := by
  intro other
  by_cases here : other = place
  · subst here
    exact Or.inr ⟨absent, get?_put_self notRoot fs _, onWay⟩
  · exact Or.inl (by simp [get?_put notRoot, here])

/-- What stood before still stands. -/
theorem keeps
    (gains : GainsDirectories before after target)
    {place : Location} {node : Node}
    (stood : before.get? place = some node) :
    after.get? place = some node := by
  rcases gains place with same | ⟨absent, -, -⟩
  · rw [same, stood]
  · rw [stood] at absent
    cases absent

theorem outside
    (gains : GainsDirectories before after target)
    {place : Location} (away : ¬ place <+: target) :
    after.get? place = before.get? place := by
  rcases gains place with same | ⟨-, -, onWay⟩
  · exact same
  · exact absurd onWay away

end GainsDirectories

section Create

variable {segments : List Name}

/-- Creating directories leaves a tree and adds nothing but directories. -/
theorem IsTree.createFrom
    {fs : FileSystem} (tree : fs.IsTree)
    {place : Location}
    (calm : ∀ segment ∈ segments, segment ≠ "..")
    (here : fs.get? place = some .directory)
    (created : Bool) :
    (fs.createFrom created place segments).1.IsTree ∧
      GainsDirectories fs (fs.createFrom created place segments).1
        (place ++ wayOf segments) := by
  induction segments generalizing fs place created with
  | nil => exact ⟨tree, .refl fs _⟩
  | cons segment segments ih =>
      have calmLater := fun other member =>
        calm other (List.mem_cons_of_mem _ member)
      have notUp := calm segment List.mem_cons_self
      by_cases idle : isIdle segment = true
      · simp only [FileSystem.createFrom, idle, if_true]
        rw [wayOf_cons, if_pos idle]
        exact ih tree calmLater here created
      · rw [wayOf_cons, if_neg idle]
        have regroup : place ++ segment :: wayOf segments =
            (place ++ [segment]) ++ wayOf segments := by simp
        simp only [FileSystem.createFrom, idle, notUp, if_false,
          Bool.false_eq_true]
        rw [regroup]
        rcases node : fs.get? (place ++ [segment]) with _ | _ | content
        · -- the directory is missing and is put in its place
          have added : GainsDirectories fs
              (fs.put (place ++ [segment]) .directory)
              ((place ++ [segment]) ++ wayOf segments) :=
            .put (by simp) node ⟨_, rfl⟩
          have later := ih (tree.putDirectory segment here) calmLater
            (get?_put_self (by simp) fs .directory) true
          exact ⟨later.1, added.trans later.2⟩
        · exact ih tree calmLater node created
        · exact ⟨tree, .refl fs _⟩

/-- Once created, a way consists of directories. -/
theorem IsTree.createFrom_ok
    {fs : FileSystem} (tree : fs.IsTree)
    {place target : Location}
    (calm : ∀ segment ∈ segments, segment ≠ "..")
    (here : fs.get? place = some .directory)
    {created : Bool}
    (done : (fs.createFrom created place segments).2 = .ok target) :
    target = place ++ wayOf segments ∧
      (fs.createFrom created place segments).1.get? target =
        some .directory := by
  obtain ⟨reached, -⟩ := createFrom_places (Prod.ext rfl done)
  obtain ⟨-, leads⟩ := tree.createFrom_leads here (Prod.ext rfl done)
  refine ⟨reached.trans (resolve_of_calm (calm_wayOf calm) place), ?_⟩
  rw [reached]
  exact leads _ (List.prefix_refl _)

end Create

/-! ## Writing files -/

section Write

variable {fs : FileSystem} {path : String}

theorem createDirectories_of_isDirect (direct : IsDirect path) :
    fs.createDirectories path =
      fs.createFrom false [] (Path.segments path) := by
  simp [createDirectories, origin_ofText, direct.1]

/-- Creating the directories of a direct path adds nothing but them. -/
theorem IsTree.createDirectories
    (tree : fs.IsTree) (direct : IsDirect path) :
    (fs.createDirectories path).1.IsTree ∧
      GainsDirectories fs (fs.createDirectories path).1 (way path) := by
  rw [createDirectories_of_isDirect direct]
  exact tree.createFrom direct.no_climb (get?_root fs) false

theorem IsTree.createDirectories_ok
    (tree : fs.IsTree) (direct : IsDirect path)
    {target : Location}
    (done : (fs.createDirectories path).2 = .ok target) :
    target = way path ∧
      (fs.createDirectories path).1.get? (way path) = some .directory := by
  rw [createDirectories_of_isDirect direct] at done ⊢
  have made := tree.createFrom_ok direct.no_climb (get?_root fs) done
  have atWay : target = way path := made.1
  exact ⟨atWay, atWay ▸ made.2⟩

/--
What writing a file does to a tree: either it fails, and then at most
directories on the way to the file are new, or the file stands in its place
afterwards, and the directories on its way.
-/
theorem IsTree.write_cases
    (tree : fs.IsTree) (named : IsNamed path) (text : String) :
    (∃ middle, middle.IsTree ∧
      GainsDirectories fs middle (way (parent path)) ∧
      ((∃ error, fs.write path text = (middle, .error error)) ∨
        middle.get? (way (parent path)) = some .directory ∧
        middle.get? (way path) ≠ some .directory ∧
        fs.write path text =
          (middle.put (way path) (.file text.toUTF8), .ok ()))) := by
  have made := tree.createDirectories named.direct_parent
  refine ⟨(fs.createDirectories (parent path)).1, made.1, made.2, ?_⟩
  rw [FileSystem.write]
  rcases done : fs.createDirectories (parent path) with ⟨middle, error | target⟩
  · exact Or.inl ⟨_, rfl⟩
  · have reached := tree.createDirectories_ok named.direct_parent
      (congrArg Prod.snd done)
    rw [done] at reached
    obtain ⟨rfl, directory⟩ := reached
    simp only [replaceFile, ← named.way_eq]
    rcases node : middle.get? (way path) with _ | _ | content
    · exact Or.inr ⟨directory, by simp, rfl⟩
    · exact Or.inl ⟨_, rfl⟩
    · exact Or.inr ⟨directory, by simp, rfl⟩

theorem IsTree.write
    (tree : fs.IsTree) (named : IsNamed path) (text : String) :
    (fs.write path text).1.IsTree := by
  obtain ⟨middle, treeMiddle, -, failed | ⟨parent, free, written⟩⟩ :=
    tree.write_cases named text
  · obtain ⟨error, failed⟩ := failed
    rw [failed]
    exact treeMiddle
  · rw [written]
    exact treeMiddle.put named.way_ne_nil
      (by rw [named.dropLast_way]; exact parent) (Or.inr free)

/-- Writing keeps whatever stands at other places. -/
theorem IsTree.write_keeps
    (tree : fs.IsTree) (named : IsNamed path) (text : String)
    {place : Location} {node : Node}
    (elsewhere : place ≠ way path)
    (stood : fs.get? place = some node) :
    (fs.write path text).1.get? place = some node := by
  obtain ⟨middle, -, gains, failed | ⟨-, -, written⟩⟩ :=
    tree.write_cases named text
  · obtain ⟨error, failed⟩ := failed
    rw [failed]
    exact gains.keeps stood
  · rw [written, get?_put named.way_ne_nil, if_neg elsewhere]
    exact gains.keeps stood

/-- Writing changes nothing that is not on the way to the file. -/
theorem IsTree.write_outside
    (tree : fs.IsTree) (named : IsNamed path) (text : String)
    {place : Location}
    (away : ¬ place <+: way path) :
    (fs.write path text).1.get? place = fs.get? place := by
  have elsewhere : place ≠ way path := by
    rintro rfl
    exact away (List.prefix_refl _)
  have awayFromParent : ¬ place <+: way (parent path) := by
    intro above
    exact away (named.way_eq ▸ above.trans (List.prefix_append _ _))
  obtain ⟨middle, -, gains, failed | ⟨-, -, written⟩⟩ :=
    tree.write_cases named text
  · obtain ⟨error, failed⟩ := failed
    rw [failed]
    exact gains.outside awayFromParent
  · rw [written, get?_put named.way_ne_nil, if_neg elsewhere]
    exact gains.outside awayFromParent

theorem IsTree.get?_write_self
    (tree : fs.IsTree) (named : IsNamed path) {text : String}
    (done : (fs.write path text).2 = .ok ()) :
    (fs.write path text).1.get? (way path) =
      some (.file text.toUTF8) := by
  obtain ⟨middle, -, -, failed | ⟨-, -, written⟩⟩ :=
    tree.write_cases named text
  · obtain ⟨error, failed⟩ := failed
    rw [failed] at done
    cases done
  · rw [written]
    exact get?_put_self named.way_ne_nil middle _

/-- After a successful writing every node is known from those before. -/
theorem IsTree.get?_write
    (tree : fs.IsTree) (named : IsNamed path) {text : String}
    (done : (fs.write path text).2 = .ok ())
    (place : Location) :
    (fs.write path text).1.get? place =
      if place = way path then some (.file text.toUTF8)
      else if place <+: way path then some .directory
      else fs.get? place := by
  have stands := tree.get?_write_self named done
  by_cases here : place = way path
  · rw [if_pos here, here, stands]
  · rw [if_neg here]
    by_cases onWay : place <+: way path
    · rw [if_pos onWay]
      exact (tree.write named text).directory_above stands onWay here
    · rw [if_neg onWay]
      exact tree.write_outside named text onWay

end Write

/-! ## Removing trees -/

section Remove

variable {fs : FileSystem} {path : String}

theorem lastName?_of_isDirect (direct : IsDirect path) :
    lastName? path ≠ some (.text ".") ∧
      lastName? path ≠ some (.text "..") := by
  have member : ∀ name, lastName? path = some name →
      name ∈ Path.segments path := by
    intro name last
    simpa using List.mem_of_find?_eq_some last
  constructor
  · intro last
    exact (direct.2 _ (member _ last)).1 rfl
  · intro last
    exact (direct.2 _ (member _ last)).2 rfl

/-- Removing a tree fails and changes nothing, or erases one place. -/
theorem removeTree_cases
    (fs : FileSystem) (direct : IsDirect path) :
    (∃ error, fs.removeTree path = (fs, .error error)) ∨
      fs.removeTree path = (fs, .ok ()) ∧
        fs.locate path = .error .missing ∨
      fs.removeTree path = (fs.erase (way path), .ok ()) ∧
        fs.get? (way path) = some .directory := by
  have last := lastName?_of_isDirect direct
  rw [removeTree]
  rcases located : fs.locate path with error | target
  · rcases error
    case missing => exact Or.inr (Or.inl ⟨rfl, rfl⟩)
    all_goals exact Or.inl ⟨_, rfl⟩
  · obtain ⟨rfl, stands⟩ := eq_of_locate_eq_ok direct located
    rcases node : fs.get? (way path) with _ | _ | content
    · exact Or.inl ⟨.notDirectory, by simp only [node]⟩
    · refine Or.inr (Or.inr ⟨?_, rfl⟩)
      simp only [node]
      split
      · rename_i dot
        exact absurd dot last.1
      · rename_i dots
        exact absurd dots last.2
      · rfl
    · exact Or.inl ⟨.notDirectory, by simp only [node]⟩

/-- After a successful removal nothing is left below the path. -/
theorem IsTree.get?_removeTree
    (tree : fs.IsTree) (direct : IsDirect path)
    (done : (fs.removeTree path).2 = .ok ())
    (place : Location) :
    (fs.removeTree path).1.get? place =
      if place ≠ [] ∧ way path <+: place then none
      else fs.get? place := by
  rcases fs.removeTree_cases direct with
    ⟨error, failed⟩ | ⟨nothing, missing⟩ | ⟨erased, -⟩
  · rw [failed] at done
    cases done
  · rw [nothing]
    split
    · rename_i below
      exact tree.get?_below_of_none
        (tree.get?_of_locate_missing direct missing) below.2
    · rfl
  · rw [erased]
    exact get?_erase fs (way path) place

end Remove

end BusReference.Files.FileSystem
