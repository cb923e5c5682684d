import Mathlib.Data.List.Induction
import Mathlib.Logic.Relation

/-!
# Depth-first walks

A walk over a graph lists elements in depth-first order and enters none twice:
what is still to be entered shrinks with every step, and so the walk ends on
every graph.  It lists exactly what can be reached.

Without memory such a walk ends only where no element leads back to itself.
Then both list the same elements, and the walk with memory keeps the first
occurrence of each.
-/

namespace BusReference.Graph

open Relation (ReflTransGen TransGen)

/-- One step along an edge. -/
def Step {α : Type} (next : α → List α) (x y : α) : Prop := y ∈ next x

/-- Any number of steps. -/
abbrev Reaches {α : Type} (next : α → List α) : α → α → Prop :=
  ReflTransGen (Step next)

section Walk

variable {α : Type} [DecidableEq α]

/-- What is still fresh after an element has been entered. -/
def without (x : α) (fresh : List α) : List α := fresh.filter (· != x)

@[simp]
theorem mem_without {x a : α} {fresh : List α} :
    a ∈ without x fresh ↔ a ∈ fresh ∧ a ≠ x := by
  simp [without]

theorem without_cons_self (x : α) (fresh : List α) :
    without x (x :: fresh) = without x fresh := by
  simp [without]

theorem length_without_lt {x : α} {fresh : List α} (entered : x ∈ fresh) :
    (without x fresh).length < fresh.length :=
  List.length_filter_lt_length_iff_exists.mpr ⟨x, entered, by simp⟩

variable (next : α → List α)

/--
The elements in front and all that they lead to, each followed by what it leads
to.  Only the fresh ones have not been entered before.
-/
def walk (fresh : List α) : List α → List α
  | [] => []
  | x :: xs =>
    if entered : x ∈ fresh then
      have := length_without_lt entered
      x :: walk (without x fresh) (next x ++ xs)
    else walk fresh xs
  termination_by xs => (fresh.length, xs.length)

@[simp]
theorem walk_nil (fresh : List α) : walk next fresh [] = [] := by
  rw [walk]

variable {next} {fresh : List α} {x : α} {xs : List α}

theorem walk_cons_of_mem (entered : x ∈ fresh) :
    walk next fresh (x :: xs) =
      x :: walk next (without x fresh) (next x ++ xs) := by
  rw [walk, dif_pos entered]

theorem walk_cons_of_not_mem (known : x ∉ fresh) :
    walk next fresh (x :: xs) = walk next fresh xs := by
  rw [walk, dif_neg known]

theorem mem_fresh_of_mem_walk
    {a : α} (listed : a ∈ walk next fresh xs) : a ∈ fresh := by
  fun_induction walk next fresh xs with
  | case1 => cases listed
  | case2 fresh x xs entered shorter ih =>
      rcases List.mem_cons.mp listed with rfl | later
      · exact entered
      · exact (mem_without.mp (ih later)).1
  | case3 fresh x xs known ih => exact ih listed

/-- No element is entered twice. -/
theorem nodup_walk (fresh xs : List α) : (walk next fresh xs).Nodup := by
  fun_induction walk next fresh xs with
  | case1 => exact List.nodup_nil
  | case2 fresh x xs entered shorter ih =>
      refine List.nodup_cons.mpr ⟨?_, ih⟩
      intro again
      exact (mem_without.mp (mem_fresh_of_mem_walk again)).2 rfl
  | case3 fresh x xs known ih => exact ih

/-! ## What a walk reaches -/

theorem exists_reaches_of_mem_walk
    {a : α} (listed : a ∈ walk next fresh xs) :
    ∃ x ∈ xs, Reaches next x a := by
  fun_induction walk next fresh xs with
  | case1 => cases listed
  | case2 fresh x xs entered shorter ih =>
      rcases List.mem_cons.mp listed with rfl | later
      · exact ⟨a, List.mem_cons_self, .refl⟩
      · obtain ⟨y, member, reaches⟩ := ih later
        rcases List.mem_append.mp member with child | waiting
        · exact ⟨x, List.mem_cons_self, .head child reaches⟩
        · exact ⟨y, List.mem_cons_of_mem _ waiting, reaches⟩
  | case3 fresh x xs known ih =>
      obtain ⟨y, member, reaches⟩ := ih listed
      exact ⟨y, List.mem_cons_of_mem _ member, reaches⟩

/-- An element that is taken off the fresh ones is in front of the rest. -/
theorem mem_cons_of_fresh
    {a : α} {later : List α} (waiting : a ∈ fresh)
    (rest : a ∈ without x fresh → a ∈ later) : a ∈ x :: later := by
  by_cases same : a = x
  · exact List.mem_cons.mpr (Or.inl same)
  · exact List.mem_cons_of_mem _ (rest (mem_without.mpr ⟨waiting, same⟩))

theorem mem_walk_of_mem
    {a : α} (waiting : a ∈ fresh) (member : a ∈ xs) :
    a ∈ walk next fresh xs := by
  fun_induction walk next fresh xs with
  | case1 => cases member
  | case2 fresh x xs entered shorter ih =>
      refine mem_cons_of_fresh waiting fun fresh => ?_
      rcases List.mem_cons.mp member with rfl | behind
      · exact absurd rfl (mem_without.mp fresh).2
      · exact ih fresh (List.mem_append_right _ behind)
  | case3 fresh x xs known ih =>
      rcases List.mem_cons.mp member with rfl | behind
      · exact absurd waiting known
      · exact ih waiting behind

/-- What was entered has all its fresh successors entered as well. -/
theorem mem_walk_of_step
    {a b : α} (listed : a ∈ walk next fresh xs)
    (edge : Step next a b) (waiting : b ∈ fresh) :
    b ∈ walk next fresh xs := by
  fun_induction walk next fresh xs with
  | case1 => cases listed
  | case2 fresh x xs entered shorter ih =>
      refine mem_cons_of_fresh waiting fun fresh => ?_
      rcases List.mem_cons.mp listed with rfl | later
      · exact mem_walk_of_mem fresh (List.mem_append_left _ edge)
      · exact ih later fresh
  | case3 fresh x xs known ih => exact ih listed waiting

/--
Where everything that a fresh element leads to is fresh, a walk lists what can
be reached.
-/
theorem mem_walk_iff
    (inside : ∀ x ∈ xs, x ∈ fresh)
    (closed : ∀ a b, Step next a b → b ∈ fresh) {a : α} :
    a ∈ walk next fresh xs ↔ ∃ x ∈ xs, Reaches next x a := by
  refine ⟨exists_reaches_of_mem_walk, ?_⟩
  rintro ⟨x, member, reaches⟩
  induction reaches with
  | refl => exact mem_walk_of_mem (inside x member) member
  | tail _ edge listed => exact mem_walk_of_step listed edge (closed _ _ edge)

theorem filter_without (x : α) (fresh listed : List α) :
    (without x fresh).filter (· ∉ listed) =
      fresh.filter (· ∉ x :: listed) := by
  rw [without, List.filter_filter]
  refine List.filter_congr fun a _ => ?_
  by_cases same : a = x <;> simp [same]

/-- What comes later is walked with what the walk over the first part left. -/
theorem walk_append (fresh xs ys : List α) :
    walk next fresh (xs ++ ys) =
      walk next fresh xs ++
        walk next (fresh.filter (· ∉ walk next fresh xs)) ys := by
  fun_induction walk next fresh xs with
  | case1 fresh =>
      rw [List.nil_append, List.nil_append, List.filter_eq_self.mpr (by simp)]
  | case2 fresh x xs entered shorter ih =>
      rw [List.cons_append, walk_cons_of_mem entered, ← List.append_assoc, ih,
        filter_without, List.cons_append]
  | case3 fresh x xs known ih =>
      rw [List.cons_append, walk_cons_of_not_mem known, ih]

end Walk

/-! ## Walks without memory -/

/--
The second list is what a walk without memory makes of the first one: each
element followed by everything that it leads to, again and again.
-/
inductive Unfolds {α : Type} (next : α → List α) : List α → List α → Prop
  | nil : Unfolds next [] []
  | cons {x : α} {xs below rest : List α}
      (first : Unfolds next (next x) below)
      (others : Unfolds next xs rest) :
      Unfolds next (x :: xs) (x :: below ++ rest)

namespace Unfolds

variable {α : Type} {next : α → List α} {xs ys l m : List α}

theorem append
    (first : Unfolds next xs l) (second : Unfolds next ys m) :
    Unfolds next (xs ++ ys) (l ++ m) := by
  induction first with
  | nil => exact second
  | cons first _ _ ih =>
      rw [List.append_assoc]
      exact .cons first ih

/-- Each element is followed by what the walk makes of those that it leads
to. -/
theorem flatMap_attach
    (below : { x // x ∈ xs } → List α)
    (each : ∀ x, Unfolds next (next x.1) (below x)) :
    Unfolds next xs (xs.attach.flatMap fun x => x.1 :: below x) := by
  have some_of : ∀ ps : List { x // x ∈ xs },
      Unfolds next (ps.map Subtype.val)
        (ps.flatMap fun x => x.1 :: below x) := by
    intro ps
    induction ps with
    | nil => exact .nil
    | cons p ps ih => exact .cons (each p) ih
  have all := some_of xs.attach
  rwa [List.attach_map_subtype_val] at all

theorem exists_reaches
    (unfolds : Unfolds next xs l) {a : α} (member : a ∈ l) :
    ∃ x ∈ xs, Reaches next x a := by
  induction unfolds with
  | nil => cases member
  | @cons x xs below rest _ _ ihFirst ihOthers =>
      rcases List.mem_append.mp member with front | behind
      · rcases List.mem_cons.mp front with rfl | child
        · exact ⟨a, List.mem_cons_self, .refl⟩
        · obtain ⟨y, edge, reaches⟩ := ihFirst child
          exact ⟨x, List.mem_cons_self, .head edge reaches⟩
      · obtain ⟨y, member, reaches⟩ := ihOthers behind
        exact ⟨y, List.mem_cons_of_mem _ member, reaches⟩

/-- A walk without memory ends only where every way ends. -/
theorem acc
    (unfolds : Unfolds next xs l) :
    ∀ x ∈ xs, Acc (Function.swap (Step next)) x := by
  induction unfolds with
  | nil =>
      intro x member
      cases member
  | cons _ _ ihFirst ihOthers =>
      intro y member
      rcases List.mem_cons.mp member with rfl | behind
      · exact ⟨y, ihFirst⟩
      · exact ihOthers y behind

end Unfolds

/-- Walks from single elements, over each of which a search is made, make up one
walk. -/
theorem Unfolds.exists_findSome?
    {α β γ : Type} {next : α → List α} (place : β → α) (hit : α → Option γ)
    (search : β → Option γ) {ps : List β}
    (each : ∀ p ∈ ps, ∃ l, Unfolds next [place p] l ∧
      search p = l.findSome? hit) :
    ∃ l, Unfolds next (ps.map place) l ∧
      ps.findSome? search = l.findSome? hit := by
  induction ps with
  | nil => exact ⟨[], .nil, rfl⟩
  | cons p ps ih =>
      obtain ⟨first, unfoldsFirst, searchFirst⟩ := each p List.mem_cons_self
      obtain ⟨rest, unfoldsRest, searchRest⟩ :=
        ih fun q member => each q (List.mem_cons_of_mem _ member)
      refine ⟨first ++ rest, unfoldsFirst.append unfoldsRest, ?_⟩
      rw [List.findSome?_cons, searchFirst, searchRest, List.findSome?_append]
      cases first.findSome? hit <;> rfl

/-- A repeated element is no hit that the first occurrence was not. -/
theorem findSome?_eraseDups
    {α γ : Type} [DecidableEq α] (hit : α → Option γ) (l : List α) :
    l.eraseDups.findSome? hit = l.findSome? hit := by
  induction l using List.reverseRecOn with
  | nil => rfl
  | append_singleton l a ih =>
      rw [List.eraseDups_append, List.findSome?_append, List.findSome?_append,
        ih]
      cases found : l.findSome? hit with
      | some b => rfl
      | none =>
          by_cases before : a ∈ l
          · have missed := List.findSome?_eq_none_iff.mp found a before
            simp [List.removeAll, before, missed]
          · simp [List.removeAll, before, List.eraseDups_cons]

/-- An element from which every way ends does not lead back to itself. -/
theorem not_transGen_self_of_acc
    {α : Type} {r : α → α → Prop} {x : α} (ends : Acc (Function.swap r) x) :
    ¬ TransGen r x x := by
  intro back
  have circular : TransGen (Function.swap r) x x := TransGen.swap _ _ back
  have endsAlways := ends.transGen
  clear ends
  induction endsAlways with
  | intro x _ ih => exact ih x circular back circular

section Agreement

variable {α : Type} {next : α → List α} {fresh xs ys l : List α}

/-- Whatever was entered before has everything that it leads to entered. -/
def Sealed (next : α → List α) (fresh xs : List α) : Prop :=
  ∀ x ∈ xs, ∀ v, Reaches next x v → v ∉ fresh →
    ∀ w, Reaches next v w → w ∉ fresh

theorem sealed_of_closed
    (inside : ∀ x ∈ xs, x ∈ fresh)
    (closed : ∀ a b, Step next a b → b ∈ fresh) : Sealed next fresh xs := by
  intro x member v reaches known
  rcases ReflTransGen.cases_tail reaches with rfl | ⟨u, -, edge⟩
  · exact absurd (inside _ member) known
  · exact absurd (closed u v edge) known

variable [DecidableEq α] {x : α}

/-- Entering an element that does not lead back keeps what is below sealed. -/
theorem Sealed.below
    (hidden : Sealed next fresh (x :: xs))
    (ends : ¬ TransGen (Step next) x x) :
    Sealed next (without x fresh) (next x) := by
  intro y edge v reaches known w onward again
  have apart : v ≠ x := by
    rintro rfl
    exact ends (.head' edge reaches)
  have passed : v ∉ fresh := fun waiting =>
    known (mem_without.mpr ⟨waiting, apart⟩)
  exact hidden x List.mem_cons_self v (.head edge reaches) passed w onward
    (mem_without.mp again).1

/-- A walk that has ended leaves everything sealed that it entered. -/
theorem Sealed.behind
    (front : Sealed next fresh xs) (behind : Sealed next fresh ys) :
    Sealed next (fresh.filter (· ∉ walk next fresh xs)) ys := by
  intro y member v reaches known w onward again
  obtain ⟨waiting, unlisted⟩ := List.mem_filter.mp again
  by_cases passed : v ∈ fresh
  · have listed : v ∈ walk next fresh xs :=
      Decidable.byContradiction fun absent =>
        known (List.mem_filter.mpr ⟨passed, by simpa using absent⟩)
    obtain ⟨x, start, way⟩ := exists_reaches_of_mem_walk listed
    have entered : ∀ u, Reaches next v u → u ∈ fresh →
        u ∈ walk next fresh xs := by
      intro u onward
      induction onward with
      | refl => exact fun _ => listed
      | @tail u u' onward edge ih =>
          intro waiting
          have before : u ∈ fresh := Decidable.byContradiction fun missing =>
            front x start u (way.trans onward) missing u' (.single edge) waiting
          exact mem_walk_of_step (ih before) edge waiting
    simp [entered w onward waiting] at unlisted
  · exact behind y member v reaches passed w onward waiting

theorem filter_append_eraseDups (fresh l m : List α) :
    ((l ++ m).filter (· ∈ fresh)).eraseDups =
      (l.filter (· ∈ fresh)).eraseDups ++
        (m.filter
          (· ∈ fresh.filter
            (· ∉ (l.filter (· ∈ fresh)).eraseDups))).eraseDups := by
  rw [List.filter_append, List.eraseDups_append, List.removeAll,
    List.filter_filter]
  congr 2
  refine List.filter_congr fun a _ => ?_
  by_cases waiting : a ∈ fresh <;> simp [waiting]

/-- The walk from one element, given the walks from those it leads to. -/
theorem walk_singleton_of_unfolds
    {below : List α} (unfolds : Unfolds next (next x) below)
    (hidden : Sealed next fresh [x])
    (agree : ∀ {fresh : List α}, Sealed next fresh (next x) →
      walk next fresh (next x) = (below.filter (· ∈ fresh)).eraseDups) :
    walk next fresh [x] = ((x :: below).filter (· ∈ fresh)).eraseDups := by
  by_cases entered : x ∈ fresh
  · have ends : ¬ TransGen (Step next) x x :=
      not_transGen_self_of_acc ⟨x, unfolds.acc⟩
    have left : below.filter (· ∈ without x fresh) =
        (below.filter (· ∈ fresh)).filter fun a => !a == x := by
      rw [List.filter_filter]
      refine List.filter_congr fun a _ => ?_
      by_cases same : a = x <;> simp [same]
    rw [walk_cons_of_mem entered, List.append_nil, agree (hidden.below ends),
      List.filter_cons_of_pos (by simpa using entered), List.eraseDups_cons,
      left]
  · have passed : below.filter (· ∈ fresh) = [] := by
      refine List.filter_eq_nil_iff.mpr fun a member => ?_
      obtain ⟨y, edge, reaches⟩ := unfolds.exists_reaches member
      simpa using hidden x List.mem_cons_self x .refl entered a
        (.head edge reaches)
    rw [walk_cons_of_not_mem entered, walk_nil,
      List.filter_cons_of_neg (by simpa using entered), passed]
    rfl

/-- The walk keeps the first occurrence of each fresh element. -/
theorem walk_eq_of_unfolds
    (unfolds : Unfolds next xs l) (hidden : Sealed next fresh xs) :
    walk next fresh xs = (l.filter (· ∈ fresh)).eraseDups := by
  induction unfolds generalizing fresh with
  | nil => simp
  | @cons x xs below rest first others ihFirst ihOthers =>
      have front : Sealed next fresh [x] := fun y member =>
        hidden y (List.mem_singleton.mp member ▸ List.mem_cons_self)
      have behind : Sealed next fresh xs := fun y member =>
        hidden y (List.mem_cons_of_mem _ member)
      have atFront := walk_singleton_of_unfolds first front ihFirst
      have later := ihOthers (front.behind behind)
      rw [atFront] at later
      rw [← List.singleton_append, walk_append, atFront, later,
        filter_append_eraseDups]

/--
Where everything that a fresh element leads to is fresh, the walk keeps the
first occurrence of each element.
-/
theorem walk_eq_eraseDups
    (unfolds : Unfolds next xs l) (inside : ∀ x ∈ xs, x ∈ fresh)
    (closed : ∀ a b, Step next a b → b ∈ fresh) :
    walk next fresh xs = l.eraseDups := by
  have all : ∀ a ∈ l, a ∈ fresh := by
    intro a member
    obtain ⟨x, start, reaches⟩ := unfolds.exists_reaches member
    rcases ReflTransGen.cases_tail reaches with rfl | ⟨u, -, edge⟩
    · exact inside _ start
    · exact closed u a edge
  rw [walk_eq_of_unfolds unfolds (sealed_of_closed inside closed),
    List.filter_eq_self.mpr (by simpa using all)]

end Agreement

/-! ## Graphs without cycles -/

section Acyclic

variable {α : Type} {r : α → α → Prop} {x : α}

/-- Nothing at or behind the element leads back to itself. -/
def Acyclic (r : α → α → Prop) (x : α) : Prop :=
  ∀ y, ReflTransGen r x y → ¬ TransGen r y y

theorem Acyclic.of_step
    (acyclic : Acyclic r x) {y : α} (edge : r x y) : Acyclic r y :=
  fun z reaches => acyclic z (.head edge reaches)

/-- Where finitely many elements can be reached, every way ends. -/
theorem Acyclic.acc
    {known : List α} (bounded : ∀ a b, r a b → b ∈ known)
    (acyclic : Acyclic r x) : Acc (Function.swap r) x := by
  classical
  -- what can be reached in one step or more shrinks with every step
  induction size : (known.filter (TransGen r x ·)).length
      using Nat.strongRecOn generalizing x with
  | ind n ih =>
      refine ⟨x, fun y (edge : r x y) => ih _ ?_ (acyclic.of_step edge) rfl⟩
      have nested : known.filter (TransGen r y ·) =
          (known.filter (TransGen r x ·)).filter (TransGen r y ·) := by
        rw [List.filter_filter]
        refine List.filter_congr fun z _ => ?_
        by_cases onward : TransGen r y z
        · simp [onward, TransGen.head edge onward]
        · simp [onward]
      rw [← size, nested]
      refine List.length_filter_lt_length_iff_exists.mpr ⟨y, ?_, ?_⟩
      · exact List.mem_filter.mpr
          ⟨bounded x y edge, by simpa using TransGen.single edge⟩
      · simpa using acyclic y (.single edge)

/-- A rank that falls with every step excludes cycles. -/
theorem acyclic_of_rank
    (known : List α) (rank : α → Nat)
    (falls : ∀ a ∈ x :: known, ∀ b, r a b → b ∈ known ∧ rank b < rank a) :
    Acyclic r x := by
  intro y reaches
  have inside : y ∈ x :: known := by
    induction reaches with
    | refl => exact List.mem_cons_self
    | tail _ edge ih => exact List.mem_cons_of_mem _ (falls _ ih _ edge).1
  have lower : ∀ z, TransGen r y z → z ∈ known ∧ rank z < rank y := by
    intro z onward
    induction onward with
    | single edge => exact falls y inside _ edge
    | tail _ edge ih =>
        obtain ⟨member, less⟩ := falls _ (List.mem_cons_of_mem _ ih.1) _ edge
        exact ⟨member, Nat.lt_trans less ih.2⟩
  exact fun back => Nat.lt_irrefl _ (lower y back).2

end Acyclic

end BusReference.Graph
