import Mathlib.Order.Basic
import BusReference.Files.Walk
import BusReference.Proofs.Files.Names
import BusReference.Proofs.Files.Reach

/-!
# What a walk finds

A walk below a directory finds the source files there that are not hidden and
not in a hidden directory, and no others.  Only a text hides what it names: a
name that is no text is not hidden, whatever its first byte.  A way that goes on
after the name of a directory comes where that name comes, before all ways with
a greater name in its place: the ways that are found ascend name by name.
-/

namespace BusReference.Files.FileSystem

open BusReference.Files.Path
open BusReference.Text (Pieces.cutAt)

/-! ## Names in a directory -/

theorem nodup_eraseDups
    {α : Type} [BEq α] [LawfulBEq α] (xs : List α) : xs.eraseDups.Nodup := by
  cases xs with
  | nil => exact List.nodup_nil
  | cons x xs =>
      rw [List.eraseDups_cons, List.nodup_cons]
      refine ⟨?_, nodup_eraseDups _⟩
      rw [List.mem_eraseDups]
      simp
  termination_by xs.length
  decreasing_by exact Nat.lt_succ_of_le (List.length_filter_le _ _)

section Names

variable {fs : FileSystem} {place : Location} {name : Name}

/-- The names in a directory are those at which something stands. -/
theorem mem_names_iff :
    name ∈ fs.names place ↔ ∃ node, fs.get? (place ++ [name]) = some node := by
  constructor
  · intro member
    obtain ⟨entry, listed, same⟩ := exists_mem_of_mem_names member
    rw [← same]
    exact exists_get?_of_entry listed
  · rintro ⟨node, stands⟩
    have listed := exists_entry_of_get? (by simp) stands
    rw [names, List.mem_mergeSort, List.mem_eraseDups, List.mem_filterMap]
    exact ⟨_, listed, by simp [nameIn?]⟩

theorem pairwise_names (fs : FileSystem) (place : Location) :
    (fs.names place).Pairwise (· < ·) := by
  have ascending : (fs.names place).Pairwise (decide <| · ≤ ·) := by
    refine List.pairwise_mergeSort ?_ ?_ _
    · intro a b c first second
      rw [decide_eq_true_eq] at first second ⊢
      exact List.le_trans first second
    · intro a b
      rw [Bool.or_eq_true, decide_eq_true_eq, decide_eq_true_eq]
      exact List.le_total a.bytes b.bytes
  have distinct : (fs.names place).Nodup :=
    (List.mergeSort_perm _ _).nodup_iff.mpr (nodup_eraseDups _)
  refine (ascending.and distinct).imp fun {a b} both => ?_
  have apart : a.bytes ≠ b.bytes :=
    fun same => both.2 (Name.bytes_bijective.injective same)
  have ordered : a.bytes ≤ b.bytes := of_decide_eq_true both.1
  exact Name.lt_def.mpr (Std.lt_of_le_of_ne ordered apart)

end Names

/-! ## Source files -/

/-- The two parts of what is cut at a separator. -/
theorem eq_append_of_cutAt
    {α : Type} [DecidableEq α] {separator : α} {xs before after : List α}
    (cut : Pieces.cutAt separator xs = some (before, after)) :
    xs = before ++ separator :: after := by
  induction xs generalizing before with
  | nil => cases cut
  | cons x xs ih =>
      rw [Pieces.cutAt] at cut
      split at cut
      · rename_i same
        cases cut
        rw [same, List.nil_append]
      · obtain ⟨⟨first, rest⟩, later, parts⟩ := Option.map_eq_some_iff.mp cut
        cases parts
        rw [ih later, List.cons_append]

/-- A source file is named by its extension and by something before it. -/
theorem isSource_iff {name : Name} :
    isSource name = true ↔
      ∃ stem, stem ≠ [] ∧ name.bytes = stem ++ Text.bytes ".php" := by
  have ending : Text.bytes ".php" = 0x2E :: Text.bytes "php" := rfl
  constructor
  · intro source
    rw [isSource, beq_iff_eq, Name.extension?] at source
    split at source
    · cases source
    · cases source
    · rename_i reversed b before cut
      have text := eq_append_of_cutAt cut
      refine ⟨(b :: before).reverse, by simp, ?_⟩
      rw [ending, ← Option.some_inj.mp source, ← List.reverse_reverse name.bytes,
        text]
      simp
  · rintro ⟨stem, filled, bytes⟩
    have cut : Pieces.cutAt 0x2E name.bytes.reverse =
        some ((Text.bytes "php").reverse, stem.reverse) := by
      rw [bytes, List.reverse_append]
      rfl
    rw [isSource, Name.extension?, cut]
    cases reversed : stem.reverse with
    | nil => exact absurd (by simpa using reversed) filled
    | cons b bs => simp

/-- Where a way leads from a directory to a source file, past everything that is
hidden. -/
structure SourceAt
    (fs : FileSystem) (place : Location) (way : List Name) : Prop where
  /-- No name is a text that starts with a dot. -/
  visible : ∀ name ∈ way, ∀ text : String, name = text →
    text.toList.head? ≠ some '.'
  source : ∃ name, way.getLast? = some name ∧
    ∃ stem, stem ≠ [] ∧ name.bytes = stem ++ Text.bytes ".php"
  file : ∃ content, fs.get? (place ++ way) = some (.file content)

section Sources

variable
    {fs : FileSystem} {place : Location} {name : Name} {way : List Name}

theorem isHidden_eq_false_iff :
    isHidden name = false ↔
      ∀ text : String, name = text → text.toList.head? ≠ some '.' := by
  cases name with
  | text s =>
      rw [isHidden, Name.text?, Option.any_some, beq_eq_false_iff_ne]
      refine ⟨fun visible text same => ?_, fun visible => visible s rfl⟩
      rw [← Name.text.inj same]
      exact visible
  | raw bytes noText =>
      refine ⟨fun _ text same => ?_, fun _ => rfl⟩
      cases same

theorem SourceAt.way_ne_nil (source : fs.SourceAt place way) : way ≠ [] := by
  rintro rfl
  obtain ⟨name, ends, -⟩ := source.source
  cases ends

theorem sourceAt_singleton :
    fs.SourceAt place [name] ↔
      isHidden name = false ∧ isSource name = true ∧
        ∃ content, fs.get? (place ++ [name]) = some (.file content) := by
  rw [isHidden_eq_false_iff, isSource_iff]
  constructor
  · rintro ⟨visible, ⟨other, ends, named⟩, file⟩
    obtain rfl : name = other := Option.some_inj.mp ends
    exact ⟨visible name List.mem_cons_self, named, file⟩
  · rintro ⟨visible, named, file⟩
    refine ⟨?_, ⟨name, rfl, named⟩, file⟩
    intro other member
    rwa [List.mem_singleton.mp member]

theorem sourceAt_cons (further : way ≠ []) :
    fs.SourceAt place (name :: way) ↔
      isHidden name = false ∧ fs.SourceAt (place ++ [name]) way := by
  have sameLast : (name :: way).getLast? = way.getLast? := by
    cases way with
    | nil => exact absurd rfl further
    | cons next way => exact List.getLast?_cons_cons
  have samePlace : place ++ name :: way = place ++ [name] ++ way := by simp
  rw [isHidden_eq_false_iff]
  constructor
  · rintro ⟨visible, source, file⟩
    refine ⟨visible name List.mem_cons_self, ?_, ?_, ?_⟩
    · exact fun other member => visible other (List.mem_cons_of_mem _ member)
    · rwa [← sameLast]
    · rwa [← samePlace]
  · rintro ⟨first, visible, source, file⟩
    refine ⟨?_, ?_, ?_⟩
    · exact List.forall_mem_cons.mpr ⟨first, visible⟩
    · rwa [sameLast]
    · rwa [samePlace]

/-- What a walk finds under one name. -/
def sourcesUnder (fs : FileSystem) (place : Location) (name : Name) :
    List (List Name) :=
  if isHidden name then []
  else
    match fs.get? (place ++ [name]) with
    | none => []
    | some (.file _) => if isSource name then [[name]] else []
    | some .directory => (fs.sourcesBelow (place ++ [name])).map (name :: ·)

theorem sourcesBelow_eq (fs : FileSystem) (place : Location) :
    fs.sourcesBelow place =
      (fs.names place).flatMap (fs.sourcesUnder place) := by
  rw [sourcesBelow, List.flatMap_subtype (g := fs.sourcesUnder place),
    List.unattach_attach]
  intro name member
  rfl

theorem mem_sourcesUnder_iff :
    way ∈ fs.sourcesUnder place name ↔
      isHidden name = false ∧
        ((∃ content, fs.get? (place ++ [name]) = some (.file content)) ∧
            isSource name = true ∧ way = [name] ∨
          fs.get? (place ++ [name]) = some .directory ∧
            ∃ below ∈ fs.sourcesBelow (place ++ [name]),
              name :: below = way) := by
  rw [sourcesUnder]
  cases isHidden name with
  | true => simp
  | false =>
      rcases fs.get? (place ++ [name]) with _ | _ | content
      · simp
      · simp
      · cases isSource name <;> simp

/-- In a tree the walk finds the source files that are not hidden. -/
theorem IsTree.mem_sourcesBelow_iff
    (tree : fs.IsTree) :
    way ∈ fs.sourcesBelow place ↔ fs.SourceAt place way := by
  induction place using sourcesBelow.induct fs generalizing way with
  | case1 place ih =>
      rw [sourcesBelow_eq, List.mem_flatMap]
      constructor
      · rintro ⟨name, member, found⟩
        obtain ⟨visible, ⟨file, source, rfl⟩ | ⟨-, below, inside, rfl⟩⟩ :=
          mem_sourcesUnder_iff.mp found
        · exact sourceAt_singleton.mpr ⟨visible, source, file⟩
        · have further := (ih name member).mp inside
          exact (sourceAt_cons further.way_ne_nil).mpr ⟨visible, further⟩
      · intro source
        cases way with
        | nil => exact absurd rfl source.way_ne_nil
        | cons name below =>
            by_cases last : below = []
            · subst last
              obtain ⟨visible, named, file⟩ := sourceAt_singleton.mp source
              refine ⟨name, mem_names_iff.mpr ⟨_, file.choose_spec⟩, ?_⟩
              exact mem_sourcesUnder_iff.mpr
                ⟨visible, .inl ⟨file, named, rfl⟩⟩
            · obtain ⟨visible, further⟩ := (sourceAt_cons last).mp source
              obtain ⟨content, stands⟩ := further.file
              have directory : fs.get? (place ++ [name]) = some .directory :=
                tree.directory_above stands (List.prefix_append _ _)
                  (by simpa using Ne.symm last)
              have member := mem_names_iff.mpr ⟨_, directory⟩
              refine ⟨name, member, mem_sourcesUnder_iff.mpr ⟨visible, ?_⟩⟩
              exact .inr ⟨directory, below, (ih name member).mpr further, rfl⟩

/-- What is found under a name starts with it. -/
theorem exists_of_mem_sourcesUnder
    (found : way ∈ fs.sourcesUnder place name) :
    ∃ below, way = name :: below := by
  obtain ⟨-, ⟨-, -, rfl⟩ | ⟨-, below, -, rfl⟩⟩ :=
    mem_sourcesUnder_iff.mp found
  · exact ⟨[], rfl⟩
  · exact ⟨below, rfl⟩

/-- The ways that a walk finds ascend name by name. -/
theorem pairwise_sourcesBelow (fs : FileSystem) (place : Location) :
    (fs.sourcesBelow place).Pairwise (· < ·) := by
  induction place using sourcesBelow.induct fs with
  | case1 place ih =>
      rw [sourcesBelow_eq, List.pairwise_flatMap]
      constructor
      · intro name member
        rw [sourcesUnder]
        split
        · exact List.Pairwise.nil
        · split
          · exact List.Pairwise.nil
          · split
            · exact List.pairwise_singleton _ _
            · exact List.Pairwise.nil
          · refine List.pairwise_map.mpr ((ih name member).imp ?_)
            exact fun less => List.cons_lt_cons_iff.mpr (.inr ⟨rfl, less⟩)
      · refine (fs.pairwise_names place).imp fun less way found other later => ?_
        obtain ⟨below, rfl⟩ := exists_of_mem_sourcesUnder found
        obtain ⟨further, rfl⟩ := exists_of_mem_sourcesUnder later
        exact List.cons_lt_cons_iff.mpr (.inl less)

end Sources

end BusReference.Files.FileSystem
