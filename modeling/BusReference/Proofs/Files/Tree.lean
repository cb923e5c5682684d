import BusReference.Files.Change
import Mathlib.Data.List.Induction

/-!
# Trees of files

A file system is a tree when every entry stands in a directory.  The file
systems of an operating system are trees; the type itself would also hold
entries that no path can reach.

The section on places says what every change does to the node at a place.  In
a tree everything on the way to an entry is a directory, and putting a node
into a directory or removing everything below a place leaves a tree.
-/

namespace BusReference.Files.FileSystem

/-! ## What stands at a place -/

@[simp]
theorem get?_root (fs : FileSystem) :
    fs.get? [] = some .directory := by
  simp [get?]

theorem get?_of_ne_root
    {place : Location}
    (notRoot : place ≠ [])
    (fs : FileSystem) :
    fs.get? place =
      (fs.entries.find? (·.1 == place)).map (·.2) := by
  simp [get?, notRoot]

/-- Keeping the entries of some places keeps what stands at these places. -/
theorem find?_filter_place
    (entries : List (Location × Node)) (keep : Location → Bool)
    (place : Location) :
    (entries.filter (keep ·.1)).find? (·.1 == place) =
      if keep place then entries.find? (·.1 == place) else none := by
  induction entries with
  | nil => simp
  | cons entry entries ih =>
      by_cases here : entry.1 = place
      · subst here
        by_cases kept : keep entry.1 = true
        · simp [kept]
        · simpa [kept] using ih
      · by_cases kept : keep entry.1 = true
        · simpa [kept, here] using ih
        · simpa [kept, here] using ih

/-- Putting a node somewhere below the root changes this one place. -/
theorem get?_put
    {place : Location}
    (notRoot : place ≠ [])
    (fs : FileSystem) (node : Node) (other : Location) :
    (fs.put place node).get? other =
      if other = place then some node else fs.get? other := by
  by_cases root : other = []
  · subst root
    simp [Ne.symm notRoot]
  · rw [get?_of_ne_root root, get?_of_ne_root root, put,
      List.find?_append, find?_filter_place _ (· != place)]
    by_cases same : other = place
    · simp [same]
    · simp [same, Ne.symm same]

@[simp]
theorem get?_put_self
    {place : Location}
    (notRoot : place ≠ [])
    (fs : FileSystem) (node : Node) :
    (fs.put place node).get? place = some node := by
  simp [get?_put notRoot]

/-- Erasing a place removes it and everything below it, except for the root. -/
theorem get?_erase
    (fs : FileSystem) (place other : Location) :
    (fs.erase place).get? other =
      if other ≠ [] ∧ place <+: other then none else fs.get? other := by
  by_cases root : other = []
  · simp [root]
  · rw [get?_of_ne_root root, get?_of_ne_root root, erase,
      find?_filter_place _ (!place.isPrefixOf ·)]
    by_cases below : place <+: other
    · have inside := List.isPrefixOf_iff_prefix.mpr below
      simp [root, below, inside]
    · have outside : place.isPrefixOf other = false := by
        rw [Bool.eq_false_iff]
        exact fun inside => below (List.isPrefixOf_iff_prefix.mp inside)
      simp [below, outside]

/-! ## Trees -/

/-- Every entry stands in a directory. -/
def IsTree (fs : FileSystem) : Prop :=
  ∀ entry ∈ fs.entries, fs.get? entry.1.dropLast = some .directory

instance (fs : FileSystem) : Decidable fs.IsTree :=
  inferInstanceAs (Decidable
    (∀ entry ∈ fs.entries, fs.get? entry.1.dropLast = some .directory))

theorem exists_entry_of_get?
    {fs : FileSystem} {place : Location} {node : Node}
    (notRoot : place ≠ [])
    (stands : fs.get? place = some node) :
    (place, node) ∈ fs.entries := by
  rw [get?_of_ne_root notRoot] at stands
  obtain ⟨⟨found, kind⟩, located, rfl⟩ := Option.map_eq_some_iff.mp stands
  have here : found = place := by
    simpa using List.find?_some located
  subst here
  exact List.mem_of_find?_eq_some located

theorem exists_get?_of_entry
    {fs : FileSystem} {entry : Location × Node}
    (member : entry ∈ fs.entries) :
    ∃ node, fs.get? entry.1 = some node := by
  by_cases root : entry.1 = []
  · exact ⟨.directory, by simp [root]⟩
  · rw [get?_of_ne_root root]
    cases located : fs.entries.find? (·.1 == entry.1) with
    | none =>
        have absent := List.find?_eq_none.mp located entry member
        simp at absent
    | some found =>
        exact ⟨found.2, rfl⟩

theorem isTree_iff {fs : FileSystem} :
    fs.IsTree ↔
      ∀ place node, fs.get? place = some node →
        fs.get? place.dropLast = some .directory := by
  constructor
  · intro tree place node stands
    by_cases root : place = []
    · simp [root]
    · exact tree _ (exists_entry_of_get? root stands)
  · intro closed entry member
    obtain ⟨node, stands⟩ := exists_get?_of_entry member
    exact closed entry.1 node stands

/-- What stands in a tree stands in a directory. -/
theorem IsTree.directory_parent
    {fs : FileSystem} (tree : fs.IsTree)
    {place : Location} {node : Node}
    (stands : fs.get? place = some node) :
    fs.get? place.dropLast = some .directory :=
  isTree_iff.mp tree place node stands

/-- Everything on the way to a place of a tree is a directory. -/
theorem IsTree.directory_above
    {fs : FileSystem} (tree : fs.IsTree)
    {upper lower : Location} {node : Node}
    (stands : fs.get? lower = some node)
    (above : upper <+: lower) (apart : upper ≠ lower) :
    fs.get? upper = some .directory := by
  obtain ⟨rest, rfl⟩ := above
  induction rest using List.reverseRecOn generalizing node with
  | nil =>
      simp at apart
  | append_singleton rest name ih =>
      have inDirectory : fs.get? (upper ++ rest) = some .directory := by
        simpa [← List.append_assoc] using tree.directory_parent stands
      by_cases last : rest = []
      · simpa [last] using inDirectory
      · exact ih inDirectory (by simpa using last)

/-- Nothing stands below a place that is no directory. -/
theorem IsTree.get?_below
    {fs : FileSystem} (tree : fs.IsTree)
    {upper lower : Location}
    (noDirectory : fs.get? upper ≠ some .directory)
    (above : upper <+: lower) (apart : upper ≠ lower) :
    fs.get? lower = none := by
  cases stands : fs.get? lower with
  | none => rfl
  | some node =>
      exact absurd (tree.directory_above stands above apart) noDirectory

/-- Where nothing stands, nothing stands below. -/
theorem IsTree.get?_below_of_none
    {fs : FileSystem} (tree : fs.IsTree)
    {upper lower : Location}
    (absent : fs.get? upper = none)
    (above : upper <+: lower) :
    fs.get? lower = none := by
  by_cases same : upper = lower
  · exact same ▸ absent
  · exact tree.get?_below (by simp [absent]) above same

/--
A node may be put into any directory of a tree, except that a file may not
take the place of a directory.
-/
theorem IsTree.put
    {fs : FileSystem} (tree : fs.IsTree)
    {place : Location} {node : Node}
    (notRoot : place ≠ [])
    (parent : fs.get? place.dropLast = some .directory)
    (fits : node = .directory ∨ fs.get? place ≠ some .directory) :
    (fs.put place node).IsTree := by
  rw [isTree_iff]
  intro lower found stands
  rw [get?_put notRoot] at stands ⊢
  have parentNotSelf : ∀ {q : Location}, q ≠ [] → q.dropLast ≠ q := by
    intro q nonempty same
    have := congrArg List.length same
    have := List.length_pos_iff.mpr nonempty
    simp only [List.length_dropLast] at *
    omega
  by_cases here : lower = place
  · subst here
    rw [if_neg (parentNotSelf notRoot)]
    exact parent
  · rw [if_neg here] at stands
    have inDirectory := tree.directory_parent stands
    by_cases inside : lower.dropLast = place
    · rcases fits with rfl | noDirectory
      · simp [inside]
      · exact absurd (inside ▸ inDirectory) noDirectory
    · simpa [inside] using inDirectory

/-- A directory may be put into any directory of a tree. -/
theorem IsTree.putDirectory
    {fs : FileSystem} (tree : fs.IsTree)
    {place : Location} (name : Name)
    (here : fs.get? place = some .directory) :
    (fs.put (place ++ [name]) .directory).IsTree :=
  tree.put (by simp) (by simpa using here) (Or.inl rfl)

theorem IsTree.erase
    {fs : FileSystem} (tree : fs.IsTree) (place : Location) :
    (fs.erase place).IsTree := by
  rw [isTree_iff]
  intro lower node stands
  rw [get?_erase] at stands ⊢
  split at stands
  · cases stands
  · rename_i kept
    have inDirectory := tree.directory_parent stands
    split
    · rename_i gone
      have lowerNotRoot : lower ≠ [] := by
        rintro rfl
        simp at gone
      exact absurd
        ⟨lowerNotRoot, gone.2.trans lower.dropLast_prefix⟩ kept
    · exact inDirectory

end BusReference.Files.FileSystem
