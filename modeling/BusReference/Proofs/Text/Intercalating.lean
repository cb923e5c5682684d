import Mathlib.Data.List.Basic

/-!
# Lists with a separator between them

What holds of the separator and of each of some lists, and is kept by putting
lists one after another, holds of the lists with the separator between them.
-/

namespace BusReference.Text

section Intercalate

variable {α β : Type} {separator : List α} {lists : List (List α)}

/-- What concatenation keeps holds of lists with a separator between them. -/
theorem intercalate_induction
    {P : List α → Prop}
    (nil : P []) (append : ∀ {xs ys}, P xs → P ys → P (xs ++ ys))
    (separates : P separator) (each : ∀ xs ∈ lists, P xs) :
    P (separator.intercalate lists) := by
  induction lists with
  | nil => exact nil
  | cons xs lists ih =>
      have first := each xs List.mem_cons_self
      cases lists with
      | nil => rwa [List.intercalate_singleton]
      | cons ys lists =>
          rw [List.intercalate_cons_cons]
          exact append (append first separates)
            (ih fun zs member => each zs (List.mem_cons_of_mem _ member))

theorem mem_of_mem_intercalate
    {a : α} (member : a ∈ separator.intercalate lists) :
    a ∈ separator ∨ ∃ xs ∈ lists, a ∈ xs := by
  refine intercalate_induction
    (P := fun ys => ∀ a ∈ ys, a ∈ separator ∨ ∃ xs ∈ lists, a ∈ xs)
    ?_ ?_ ?_ ?_ a member
  · intro a inside
    cases inside
  · intro xs ys first second a inside
    exact (List.mem_append.mp inside).elim (first a) (second a)
  · intro a inside
    exact Or.inl inside
  · intro xs listed a inside
    exact Or.inr ⟨xs, listed, inside⟩

theorem flatMap_intercalate (f : α → List β) :
    (separator.intercalate lists).flatMap f =
      (separator.flatMap f).intercalate (lists.map (·.flatMap f)) := by
  induction lists with
  | nil => rfl
  | cons xs lists ih =>
      cases lists with
      | nil => simp
      | cons ys lists =>
          rw [List.intercalate_cons_cons, List.flatMap_append,
            List.flatMap_append, ih, List.map_cons, List.map_cons,
            List.map_cons, List.intercalate_cons_cons]

end Intercalate

end BusReference.Text
