import Mathlib.Data.List.Infix
import BusReference.Text.Pieces

/-!
# Removing a text

What is left when all occurrences of a pattern are removed from a text.  What
has no character of the pattern stays, and splits the text into parts that are
on their own; and nothing goes exactly if the pattern does not occur.
-/

namespace BusReference.Text.Pieces

section Removing

variable {pattern cs ds : List Char} {c : Char}

/-- The text without the occurrences of a pattern. -/
def removed (pattern cs : List Char) : List Char :=
  replaceAll pattern [] 0 cs

@[simp]
theorem removed_nil (pattern : List Char) : removed pattern [] = [] := rfl

theorem replaceAll_skip (pattern replacement : List Char) (n : Nat) (cs : List Char) :
    replaceAll pattern replacement n cs =
      replaceAll pattern replacement 0 (cs.drop n) := by
  induction cs generalizing n with
  | nil => simp [replaceAll]
  | cons c cs ih =>
      cases n with
      | zero => rfl
      | succ n => exact ih n

theorem removed_prefix (nonempty : pattern ≠ []) (cs : List Char) :
    removed pattern (pattern ++ cs) = removed pattern cs := by
  cases pattern with
  | nil => exact absurd rfl nonempty
  | cons c others =>
      have starts : (c :: others).isPrefixOf (c :: (others ++ cs)) = true := by
        simp
      rw [removed, List.cons_append, replaceAll, if_pos starts,
        replaceAll_skip, List.nil_append]
      simp [removed]

theorem removed_cons (other : ¬ pattern <+: c :: cs) :
    removed pattern (c :: cs) = c :: removed pattern cs := by
  rw [removed, replaceAll, if_neg (by simpa using other)]
  rfl

theorem removed_append
    (apart : ∀ first ∈ pattern.head?, first ∉ ds) (nonempty : pattern ≠ [])
    (cs : List Char) :
    removed pattern (ds ++ cs) = ds ++ removed pattern cs := by
  induction ds with
  | nil => rfl
  | cons d ds ih =>
      cases pattern with
      | nil => exact absurd rfl nonempty
      | cons first others =>
          have without : first ∉ d :: ds := apart first rfl
          rw [List.mem_cons, not_or] at without
          have other : ¬ first :: others <+: d :: (ds ++ cs) := by
            rw [List.cons_prefix_cons]
            exact fun starts => without.1 starts.1
          rw [List.cons_append, removed_cons other, List.cons_append, ih]
          rintro _ ⟨⟩
          exact without.2

theorem replaceAll_length_le (pattern : List Char) (n : Nat) (cs : List Char) :
    (replaceAll pattern [] n cs).length ≤ cs.length := by
  induction cs generalizing n with
  | nil => exact Nat.le_refl _
  | cons c cs ih =>
      cases n with
      | succ n => exact Nat.le_succ_of_le (ih n)
      | zero =>
          rw [replaceAll]
          split
          · exact Nat.le_succ_of_le (ih _)
          · exact Nat.succ_le_succ (ih _)

theorem removed_length_le (pattern cs : List Char) :
    (removed pattern cs).length ≤ cs.length :=
  replaceAll_length_le pattern 0 cs

theorem removed_eq_self (absent : ¬ pattern <:+: cs) : removed pattern cs = cs := by
  induction cs with
  | nil => rfl
  | cons c cs ih =>
      rw [List.infix_cons_iff, not_or] at absent
      rw [removed_cons absent.1, ih absent.2]

theorem removed_length_lt
    (nonempty : pattern ≠ []) (occurs : pattern <:+: cs) :
    (removed pattern cs).length < cs.length := by
  induction cs with
  | nil => exact absurd (List.infix_nil.mp occurs) nonempty
  | cons c cs ih =>
      by_cases starts : pattern <+: c :: cs
      · obtain ⟨rest, whole⟩ := starts
        have shorter := removed_length_le pattern rest
        have positive := List.length_pos_iff.mpr nonempty
        rw [← whole, removed_prefix nonempty, List.length_append]
        omega
      · rw [List.infix_cons_iff] at occurs
        rw [removed_cons starts]
        exact Nat.succ_lt_succ (ih (occurs.resolve_left starts))

theorem prefix_append_cons_iff (without : c ∉ pattern) :
    pattern <+: cs ++ c :: ds ↔ pattern <+: cs := by
  constructor
  · rintro ⟨rest, whole⟩
    rcases List.append_eq_append_iff.mp whole with
      ⟨after, rfl, -⟩ | ⟨between, rfl, ends⟩
    · exact List.prefix_append _ _
    · cases between with
      | nil => simp
      | cons d between =>
          obtain ⟨rfl, -⟩ := List.cons.inj ends
          exact absurd (by simp) without
  · exact fun starts => starts.trans (List.prefix_append _ _)

theorem infix_append_cons_iff (without : c ∉ pattern) :
    pattern <:+: cs ++ c :: ds ↔ pattern <:+: cs ∨ pattern <:+: ds := by
  induction cs with
  | nil =>
      have start : pattern <+: [] ++ c :: ds ↔ pattern <+: [] :=
        prefix_append_cons_iff without
      rw [List.nil_append] at start ⊢
      rw [List.infix_cons_iff, start, List.prefix_nil, List.infix_nil]
  | cons d cs ih =>
      rw [List.cons_append, List.infix_cons_iff, ← List.cons_append,
        prefix_append_cons_iff without, ih, List.infix_cons_iff, or_assoc]

/-- A character that a text does not have is found after that text. -/
theorem exists_append_of_not_mem
    {before after : List Char} (absent : c ∉ cs)
    (text : cs ++ ds = before ++ c :: after) :
    ∃ lead, before = cs ++ lead ∧ ds = lead ++ c :: after := by
  rcases List.append_eq_append_iff.mp text with
    ⟨lead, equal, later⟩ | ⟨lead, equal, earlier⟩
  · exact ⟨lead, equal, later⟩
  · cases lead with
    | nil =>
        rw [List.append_nil] at equal
        exact ⟨[], by rw [equal, List.append_nil], earlier.symm⟩
    | cons d lead =>
        rw [List.cons_append, List.cons.injEq] at earlier
        obtain ⟨rfl, -⟩ := earlier
        rw [equal] at absent
        exact absurd (List.mem_append_right before List.mem_cons_self) absent

/-- Where a character is none of the pattern, both sides are on their own. -/
theorem removed_append_cons
    (nonempty : pattern ≠ []) (without : c ∉ pattern) (cs ds : List Char) :
    removed pattern (cs ++ c :: ds) =
      removed pattern cs ++ c :: removed pattern ds := by
  induction size : cs.length using Nat.strongRecOn generalizing cs with
  | _ size ih =>
  subst size
  by_cases starts : pattern <+: cs
  · obtain ⟨rest, rfl⟩ := starts
    have shorter : rest.length < (pattern ++ rest).length := by
      have positive := List.length_pos_iff.mpr nonempty
      rw [List.length_append]
      omega
    rw [List.append_assoc, removed_prefix nonempty, removed_prefix nonempty]
    exact ih _ shorter rest rfl
  · have other : ¬ pattern <+: cs ++ c :: ds := by
      rwa [prefix_append_cons_iff without]
    cases cs with
    | nil => exact removed_cons other
    | cons d cs =>
        rw [List.cons_append] at other
        rw [removed_cons starts, List.cons_append, removed_cons other,
          ih _ (Nat.lt_succ_self _) cs rfl, List.cons_append]

end Removing

end BusReference.Text.Pieces
