import BusReference.Text.Blank
import Mathlib.Data.List.DropRight

/-!
# Trimmed texts

Trimming takes the blanks off both ends of a text.  What stands between two
visible characters stays, so a trimmed text is trimmed already, and blanks that
are put around a text make no difference.
-/

namespace BusReference.Text.Blank

/-! ## Ends of lists -/

section Ends

variable {α : Type} {p : α → Bool} {a : α}

theorem rdropWhile_cons_of_neg
    (stays : p a = false) (as : List α) :
    (a :: as).rdropWhile p = a :: as.rdropWhile p := by
  rw [List.rdropWhile, List.reverse_cons, List.dropWhile_append]
  split
  · rename_i nothing
    rw [List.isEmpty_iff] at nothing
    rw [List.rdropWhile, nothing]
    simp [stays]
  · rw [List.reverse_append]
    rfl

theorem rdropWhile_append_of_pos
    {ys : List α} (dropped : ∀ y ∈ ys, p y = true) (xs : List α) :
    (xs ++ ys).rdropWhile p = xs.rdropWhile p := by
  rw [List.rdropWhile, List.reverse_append, List.dropWhile_append_of_pos]
  · rfl
  · intro y member
    exact dropped y (List.mem_reverse.mp member)

theorem rdropWhile_append_of_ne_nil
    {ys : List α} (left : ys.rdropWhile p ≠ []) (xs : List α) :
    (xs ++ ys).rdropWhile p = xs ++ ys.rdropWhile p := by
  have some : (ys.reverse.dropWhile p).isEmpty = false := by
    rw [List.isEmpty_eq_false_iff]
    exact fun nothing => left (by rw [List.rdropWhile, nothing]; rfl)
  rw [List.rdropWhile, List.reverse_append, List.dropWhile_append, some,
    if_neg Bool.false_ne_true, List.reverse_append, List.reverse_reverse]
  rfl

end Ends

/-! ## Blank texts -/

/-- There is nothing to see in the text. -/
def IsBlank (cs : List Char) : Prop :=
  ∀ c ∈ cs, isBlank c = true

section Blanks

variable {cs ds : List Char} {c : Char}

theorem isBlank_append_iff : IsBlank (cs ++ ds) ↔ IsBlank cs ∧ IsBlank ds :=
  List.forall_mem_append

theorem isBlank_cons_iff : IsBlank (c :: cs) ↔ isBlank c = true ∧ IsBlank cs :=
  List.forall_mem_cons

/-- A text that is not blank goes on after its leading blanks. -/
theorem dropWhile_append_of_not_isBlank (visible : ¬ IsBlank cs) (ds : List Char) :
    (cs ++ ds).dropWhile isBlank = cs.dropWhile isBlank ++ ds := by
  rw [List.dropWhile_append, if_neg]
  intro nothing
  apply visible
  exact List.dropWhile_eq_nil_iff.mp (List.isEmpty_iff.mp nothing)

/-! ## Trimming -/

theorem trim_eq (cs : List Char) :
    trim cs = (cs.dropWhile isBlank).rdropWhile isBlank := rfl

theorem trim_cons (visible : isBlank c = false) :
    trim (c :: cs) = c :: cs.rdropWhile isBlank := by
  rw [← rdropWhile_cons_of_neg visible, trim, List.dropWhile_cons, visible]
  rfl

theorem trim_append_left (blank : IsBlank ds) (cs : List Char) :
    trim (ds ++ cs) = trim cs := by
  rw [trim_eq, List.dropWhile_append_of_pos blank, trim_eq]

theorem trim_append_right (blank : IsBlank ds) (cs : List Char) :
    trim (cs ++ ds) = trim cs := by
  rw [trim_eq, trim_eq]
  by_cases visible : IsBlank cs
  · rw [List.dropWhile_append_of_pos visible, List.dropWhile_eq_nil_iff.mpr blank,
      List.dropWhile_eq_nil_iff.mpr visible]
  · rw [dropWhile_append_of_not_isBlank visible]
    exact rdropWhile_append_of_pos blank _

theorem trim_append_of_not_isBlank (left : ¬ IsBlank cs) (right : ¬ IsBlank ds) :
    trim (cs ++ ds) = cs.dropWhile isBlank ++ ds.rdropWhile isBlank := by
  rw [trim_eq, dropWhile_append_of_not_isBlank left]
  apply rdropWhile_append_of_ne_nil
  exact fun nothing => right (List.rdropWhile_eq_nil_iff.mp nothing)

/-- A text consists of the trimmed text and of blanks around it. -/
theorem exists_trim (cs : List Char) :
    ∃ before after, IsBlank before ∧ IsBlank after ∧
      cs = before ++ trim cs ++ after := by
  refine ⟨cs.takeWhile isBlank, (cs.dropWhile isBlank).rtakeWhile isBlank,
    fun c => List.mem_takeWhile_imp, fun c => List.mem_rtakeWhile_imp, ?_⟩
  rw [trim_eq, List.append_assoc, List.rdropWhile_append_rtakeWhile,
    List.takeWhile_append_dropWhile]

theorem trim_eq_nil_iff : trim cs = [] ↔ IsBlank cs := by
  constructor
  · intro nothing
    obtain ⟨before, after, left, right, text⟩ := exists_trim cs
    rw [nothing, List.append_nil] at text
    rw [text]
    exact isBlank_append_iff.mpr ⟨left, right⟩
  · intro blank
    rw [trim_eq, List.dropWhile_eq_nil_iff.mpr blank]
    rfl

@[simp]
theorem trim_trim (cs : List Char) : trim (trim cs) = trim cs := by
  obtain ⟨before, after, left, right, text⟩ := exists_trim cs
  symm
  calc trim cs
    _ = trim (before ++ trim cs ++ after) := congrArg trim text
    _ = trim (before ++ trim cs) := trim_append_right right _
    _ = trim (trim cs) := trim_append_left left _

theorem trim_length_le (cs : List Char) : (trim cs).length ≤ cs.length := by
  obtain ⟨before, after, -, -, text⟩ := exists_trim cs
  have length := congrArg List.length text
  simp only [List.length_append] at length
  omega

/-- A trimmed text starts with a visible character. -/
theorem isBlank_of_trim_eq_cons (first : trim cs = c :: ds) : isBlank c = false := by
  rw [← Bool.not_eq_true]
  intro blank
  have shorter : trim cs = trim ds := by
    rw [← trim_trim, first]
    exact trim_append_left (List.forall_mem_singleton.mpr blank) ds
  have bound := trim_length_le ds
  rw [← shorter, first, List.length_cons] at bound
  omega

/-- A trimmed text ends with a visible character. -/
theorem isBlank_of_trim_eq_concat (last : trim cs = ds ++ [c]) : isBlank c = false := by
  rw [← Bool.not_eq_true]
  intro blank
  have shorter : trim cs = trim ds := by
    rw [← trim_trim, last]
    exact trim_append_right (List.forall_mem_singleton.mpr blank) ds
  have bound := trim_length_le ds
  rw [← shorter, last, List.length_append, List.length_singleton] at bound
  omega

theorem trim_eq_self
    (first : ∀ c ∈ cs.head?, isBlank c = false)
    (last : ∀ c ∈ cs.getLast?, isBlank c = false) :
    trim cs = cs := by
  cases cs with
  | nil => rfl
  | cons c cs =>
      have visible : isBlank c = false := first c rfl
      rw [trim_cons visible, ← rdropWhile_cons_of_neg visible,
        List.rdropWhile_eq_self_iff]
      intro filled
      rw [last _ (List.getLast?_eq_some_getLast filled)]
      exact Bool.false_ne_true

/-- A text that is trimmed starts and ends with visible characters. -/
theorem trim_eq_self_iff :
    trim cs = cs ↔
      (∀ c ∈ cs.head?, isBlank c = false) ∧ ∀ c ∈ cs.getLast?, isBlank c = false := by
  constructor
  · intro trimmed
    constructor
    · intro c first
      obtain ⟨rest, text⟩ := List.head?_eq_some_iff.mp first
      exact isBlank_of_trim_eq_cons (trimmed.trans text)
    · intro c last
      obtain ⟨rest, text⟩ := List.getLast?_eq_some_iff.mp last
      exact isBlank_of_trim_eq_concat (trimmed.trans text)
  · rintro ⟨first, last⟩
    exact trim_eq_self first last

/-- A blank inside of a trimmed text stands between visible characters. -/
theorem not_isBlank_of_trim_eq_append_cons
    (blank : isBlank c = true) {es : List Char} (text : trim cs = ds ++ c :: es) :
    ¬ IsBlank ds ∧ ¬ IsBlank es := by
  constructor
  · intro before
    cases ds with
    | nil =>
        rw [isBlank_of_trim_eq_cons text] at blank
        cases blank
    | cons d ds =>
        have visible := isBlank_of_trim_eq_cons text
        rw [before d List.mem_cons_self] at visible
        cases visible
  · intro after
    cases es using List.reverseRecOn with
    | nil =>
        rw [isBlank_of_trim_eq_concat text] at blank
        cases blank
    | append_singleton es e =>
        rw [← List.cons_append, ← List.append_assoc] at text
        have visible := isBlank_of_trim_eq_concat text
        rw [after e (List.mem_append_right _ List.mem_cons_self)] at visible
        cases visible

/-- A blank stays in the trimmed text if it stands between visible characters. -/
theorem mem_trim_iff (blank : isBlank c = true) :
    c ∈ trim cs ↔
      ∃ before after, cs = before ++ c :: after ∧ ¬ IsBlank before ∧ ¬ IsBlank after := by
  constructor
  · intro member
    obtain ⟨left, right, middle⟩ := List.append_of_mem member
    obtain ⟨lead, trail, _, _, text⟩ := exists_trim cs
    obtain ⟨visibleLeft, visibleRight⟩ := not_isBlank_of_trim_eq_append_cons blank middle
    refine ⟨lead ++ left, right ++ trail, ?_, ?_, ?_⟩
    · rw [text, middle]
      simp
    · exact fun both => visibleLeft (isBlank_append_iff.mp both).2
    · exact fun both => visibleRight (isBlank_append_iff.mp both).1
  · rintro ⟨before, after, rfl, visibleLeft, visibleRight⟩
    have first : ¬ IsBlank (before ++ [c]) :=
      fun both => visibleLeft (isBlank_append_iff.mp both).1
    have text : before ++ c :: after = before ++ [c] ++ after := by simp
    rw [text, trim_append_of_not_isBlank first visibleRight,
      dropWhile_append_of_not_isBlank visibleLeft]
    simp

/-- Blanks that the trimmed text does not have can be left out before trimming. -/
theorem trim_filter_ne (blank : isBlank c = true) (absent : c ∉ trim cs) :
    trim (cs.filter (· ≠ c)) = trim cs := by
  obtain ⟨before, after, left, right, text⟩ := exists_trim cs
  have kept : (trim cs).filter (· ≠ c) = trim cs := by
    apply List.filter_eq_self.mpr
    intro d member
    rw [decide_eq_true_eq]
    rintro rfl
    exact absent member
  have blanks : ∀ ds, IsBlank ds → IsBlank (ds.filter (· ≠ c)) :=
    fun ds all d member => all d (List.mem_filter.mp member).1
  calc trim (cs.filter (· ≠ c))
    _ = trim ((before ++ trim cs ++ after).filter (· ≠ c)) := by rw [← text]
    _ = trim (before.filter (· ≠ c) ++ trim cs ++ after.filter (· ≠ c)) := by
        rw [List.filter_append, List.filter_append, kept]
    _ = trim (before.filter (· ≠ c) ++ trim cs) := trim_append_right (blanks _ right) _
    _ = trim (trim cs) := trim_append_left (blanks _ left) _
    _ = trim cs := trim_trim cs

end Blanks

end BusReference.Text.Blank
