import BusReference.Files.FileSystem

/-!
# Walking directories

The source files below a directory. Hidden files and directories are passed over. The files come in
the order of a walk that takes the names in each directory in ascending order.
-/

namespace BusReference.Files.FileSystem

/-- An entry stands strictly below a location. -/
def isBelow (place : Location) (entry : Location × Node) : Bool :=
  place.isPrefixOf entry.1 && entry.1 != place

/-- The number of entries below a location. -/
def sizeBelow (fs : FileSystem) (place : Location) : Nat :=
  (fs.entries.filter (isBelow place)).length

theorem exists_mem_of_mem_names {fs : FileSystem} {place : Location} {name : Name}
    (h : name ∈ fs.names place) : ∃ entry ∈ fs.entries, entry.1 = place ++ [name] := by
  simp only [names, List.mem_mergeSort, List.mem_eraseDups, List.mem_filterMap] at h
  obtain ⟨entry, mem, found⟩ := h
  refine ⟨entry, mem, ?_⟩
  unfold nameIn? at found
  split at found
  · next same =>
    obtain ⟨above, split⟩ := List.getLast?_eq_some_iff.1 found
    rw [split, List.dropLast_concat] at same
    rw [split, same]
  · simp at found

theorem isBelow_of_isBelow_append {place : Location} {name : Name} {entry : Location × Node}
    (h : isBelow (place ++ [name]) entry = true) : isBelow place entry = true := by
  simp only [isBelow, Bool.and_eq_true, List.isPrefixOf_iff_prefix, bne_iff_ne] at h ⊢
  refine ⟨(List.prefix_append place [name]).trans h.1, fun same => ?_⟩
  have := h.1.length_le
  rw [same, List.length_append, List.length_singleton] at this
  omega

theorem sizeBelow_lt {fs : FileSystem} {place : Location} {name : Name}
    (h : name ∈ fs.names place) : fs.sizeBelow (place ++ [name]) < fs.sizeBelow place := by
  obtain ⟨entry, mem, same⟩ := exists_mem_of_mem_names h
  have nested : fs.entries.filter (isBelow (place ++ [name])) =
      (fs.entries.filter (isBelow place)).filter (isBelow (place ++ [name])) := by
    rw [List.filter_filter]
    refine List.filter_congr fun e _ => ?_
    cases he : isBelow (place ++ [name]) e with
    | false => rfl
    | true => rw [isBelow_of_isBelow_append he]; rfl
  rw [sizeBelow, sizeBelow, nested]
  refine List.length_filter_lt_length_iff_exists.2 ⟨entry, ?_, ?_⟩
  · rw [List.mem_filter]
    refine ⟨mem, ?_⟩
    simp [isBelow, same, List.isPrefixOf_iff_prefix]
  · simp [isBelow, same]

/-- A file or directory whose name is a text that starts with a dot is hidden. A name that is no
text is not looked into. -/
def isHidden (name : Name) : Bool := name.text?.any fun text => text.toList.head? == some '.'

/-- A source file is known by the extension of its name, whether that is a text or not. -/
def isSource (name : Name) : Bool := name.extension? == some (Text.bytes "php")

/-- The ways from a directory to the source files below it, in the order of the walk. -/
def sourcesBelow (fs : FileSystem) (place : Location) : List (List Name) :=
  (fs.names place).attach.flatMap fun ⟨name, mem⟩ =>
    if isHidden name then []
    else
      match fs.get? (place ++ [name]) with
      | none => []
      | some (.file _) => if isSource name then [[name]] else []
      | some .directory =>
        have := sizeBelow_lt mem
        (fs.sourcesBelow (place ++ [name])).map (name :: ·)
  termination_by fs.sizeBelow place

end BusReference.Files.FileSystem
