import BusReference.Text.CaseMapping

/-!
# Lower case

What the lower-case form of a character can be.  It is never empty, it is in
lower case already, and the punctuation marks and digits of the ASCII block are
in it only where they stand for themselves.  The table of shifts is read as
progressions of images: each image lies above the brackets of the ASCII block,
and no image is a code point that is shifted itself.
-/

namespace BusReference.Text

/-! ## Progressions -/

/-- The code points onto which a shift moves its own. -/
def Shift.image (s : Shift) : Progression where
  first := (s.points.first + s.distance).toNat
  last := (s.points.last + s.distance).toNat
  step := s.points.step

/-- The members of a progression. -/
def Progression.members (p : Progression) : List Nat :=
  List.range' p.first ((p.last - p.first) / p.step + 1) p.step

theorem Progression.has_iff {p : Progression} {c : Char} :
    p.has c = true ↔
      p.first ≤ c.toNat ∧ c.toNat ≤ p.last ∧ (c.toNat - p.first) % p.step = 0 := by
  simp [has, and_assoc]

theorem Progression.mem_members_of_has
    {p : Progression} {c : Char} (inside : p.has c = true) :
    c.toNat ∈ p.members := by
  obtain ⟨start, bound, multiple⟩ := has_iff.mp inside
  rw [members, List.mem_range']
  refine ⟨(c.toNat - p.first) / p.step, ?_, ?_⟩
  · exact Nat.lt_succ_of_le (Nat.div_le_div_right (Nat.sub_le_sub_right bound _))
  · have whole := Nat.div_add_mod (c.toNat - p.first) p.step
    omega

/-- The number whose binary digits tell which numbers are listed. -/
def mask (ns : List Nat) : Nat :=
  ns.foldr (fun n digits => 1 <<< n ||| digits) 0

theorem testBit_mask (ns : List Nat) (n : Nat) :
    (mask ns).testBit n = decide (n ∈ ns) := by
  induction ns with
  | nil => simp [mask]
  | cons m ns ih =>
      have digits : mask (m :: ns) = 1 <<< m ||| mask ns := rfl
      rw [digits, Nat.testBit_or, ih, Nat.one_shiftLeft, Nat.testBit_two_pow]
      simp [List.mem_cons, eq_comm]

theorem not_mem_of_mask_and_eq_zero
    {ms ns : List Nat} (apart : mask ms &&& mask ns = 0) {n : Nat}
    (member : n ∈ ms) : n ∉ ns := by
  intro other
  have digit : (mask ms &&& mask ns).testBit n = true := by
    rw [Nat.testBit_and, testBit_mask, testBit_mask]
    simp [member, other]
  rw [apart, Nat.zero_testBit] at digit
  cases digit

/-- The character of a number has that number, or is none. -/
theorem toNat_ofNat_eq_or (n : Nat) :
    (Char.ofNat n).toNat = n ∨ (Char.ofNat n).toNat = 0 := by
  by_cases valid : n.isValidChar
  · left
    rw [Char.ofNat, dif_pos valid]
    rfl
  · right
    rw [Char.ofNat, dif_neg valid]
    rfl

namespace CaseMapping

variable {c d x : Char} {s : Shift}

/-! ## Images of shifts -/

/-- No shift to lower case ends at a capital letter or a bracket. -/
theorem bracket_lt_shifted :
    toLowerShifts.all
      (fun s => decide (0x5d < (s.points.first : Int) + s.distance)) =
        true := by
  decide

/-- No image is shifted again, and none is the dotted capital I.  Masks decide
that without comparing every image with every shift. -/
theorem images_apart :
    mask (toLowerShifts.flatMap (·.image.members)) &&&
      mask (0x130 :: toLowerShifts.flatMap (·.points.members)) = 0 := by
  decide +kernel

theorem not_mem_of_image
    (listed : s ∈ toLowerShifts) (image : s.image.has c = true) :
    c.toNat ∉ 0x130 :: toLowerShifts.flatMap (·.points.members) :=
  not_mem_of_mask_and_eq_zero images_apart
    (List.mem_flatMap.mpr ⟨s, listed, Progression.mem_members_of_has image⟩)

/-- A shift leads to the start of the code space only where it leaves the
characters, and else to its image. -/
theorem move_cases
    (listed : s ∈ toLowerShifts) (inside : s.points.has c = true) :
    (s.move c).toNat = 0 ∨
      0x5d < (s.move c).toNat ∧ s.image.has (s.move c) = true := by
  have bound := List.all_eq_true.mp bracket_lt_shifted s listed
  rw [decide_eq_true_iff] at bound
  rw [Progression.has_iff] at inside ⊢
  obtain ⟨start, stop, multiple⟩ := inside
  rw [Shift.move]
  rcases toNat_ofNat_eq_or (c.toNat + s.distance).toNat with moved | outside
  · right
    have steps : (c.toNat + s.distance).toNat -
        (s.points.first + s.distance).toNat = c.toNat - s.points.first := by
      omega
    rw [moved]
    refine ⟨by omega, ?_, ?_, ?_⟩
    · exact Int.toNat_le_toNat (by omega)
    · exact Int.toNat_le_toNat (by omega)
    · rwa [Shift.image, steps]
  · exact .inl outside

/-! ## Lower-case forms -/

/-- The lower-case form, by what the character is. -/
theorem lower_cases (c : Char) :
    (c.toNat < 0x80 ∧ ('A' ≤ c ∧ c ≤ 'Z') ∧ lower c = [Char.ofNat (c.toNat + 0x20)]) ∨
      c.toNat = 0x130 ∧ lower c = ['i', Char.ofNat 0x307] ∨
      (∃ s ∈ toLowerShifts, s.points.has c = true ∧ lower c = [s.move c]) ∨
      lower c = [c] := by
  rw [lower]
  split
  · rename_i ascii
    split
    · rename_i capital
      rw [Bool.and_eq_true, decide_eq_true_eq, decide_eq_true_eq] at capital
      exact .inl ⟨ascii, capital, rfl⟩
    · exact .inr (.inr (.inr rfl))
  · split
    · rename_i dotted
      exact .inr (.inl ⟨dotted, rfl⟩)
    · right; right
      rw [Shift.apply]
      split
      · rename_i s found
        exact .inl ⟨s, List.mem_of_find?_eq_some found,
          by simpa using List.find?_some found, rfl⟩
      · exact .inr rfl

theorem lower_ne_nil (c : Char) : lower c ≠ [] := by
  rcases lower_cases c with ⟨-, -, form⟩ | ⟨-, form⟩ | ⟨s, -, -, form⟩ | form
  all_goals
    rw [form]
    exact List.cons_ne_nil _ _

theorem toNat_of_capital (capital : 'A' ≤ c ∧ c ≤ 'Z') :
    0x41 ≤ c.toNat ∧ c.toNat ≤ 0x5a :=
  ⟨UInt32.le_iff_toNat_le.mp capital.1, UInt32.le_iff_toNat_le.mp capital.2⟩

/-- What a lower-case form consists of, by what the character is. -/
theorem mem_lower_cases (member : x ∈ lower c) :
    (0x41 ≤ c.toNat ∧ c.toNat ≤ 0x5a ∧
        (x.toNat = c.toNat + 0x20 ∨ x.toNat = 0)) ∨
      x = 'i' ∨ x = Char.ofNat 0x307 ∨
      (∃ s ∈ toLowerShifts, s.points.has c = true ∧ x = s.move c) ∨
      x = c ∧ lower c = [c] := by
  rcases lower_cases c with
    ⟨-, capital, form⟩ | ⟨-, form⟩ | ⟨s, listed, inside, form⟩ | form
  · obtain ⟨above, below⟩ := toNat_of_capital capital
    rw [form, List.mem_singleton] at member
    rw [member]
    exact .inl ⟨above, below, toNat_ofNat_eq_or (c.toNat + 0x20)⟩
  · rw [form, List.mem_cons, List.mem_singleton] at member
    exact .inr (member.imp_right .inl)
  · rw [form, List.mem_singleton] at member
    exact .inr (.inr (.inr (.inl ⟨s, listed, inside, member⟩)))
  · have same := member
    rw [form, List.mem_singleton] at same
    exact .inr (.inr (.inr (.inr ⟨same, form⟩)))

/-- The first characters of the code space, except capital letters, are in the
lower-case forms of themselves only. -/
theorem eq_of_mem_lower_of_le
    (member : x ∈ lower c) (positive : 0 < x.toNat) (small : x.toNat ≤ 0x5d) :
    c = x := by
  rcases mem_lower_cases member with
    ⟨above, below, image⟩ | rfl | rfl | ⟨s, listed, inside, rfl⟩ | ⟨same, -⟩
  · omega
  · exact absurd small (by decide)
  · exact absurd small (by decide)
  · have image := move_cases listed inside
    omega
  · exact same.symm

/-- A character that is no capital letter and that no shift moves is in lower
case. -/
theorem lower_eq_self
    (noCapital : ¬('A' ≤ c ∧ c ≤ 'Z')) (noDot : c.toNat ≠ 0x130)
    (unmoved : ∀ s ∈ toLowerShifts, s.points.has c = false) : lower c = [c] := by
  rcases lower_cases c with
    ⟨-, capital, -⟩ | ⟨dotted, -⟩ | ⟨s, listed, inside, -⟩ | form
  · exact absurd capital noCapital
  · exact absurd dotted noDot
  · rw [unmoved s listed] at inside
    cases inside
  · exact form

theorem lower_eq_self_of_lt
    (ascii : c.toNat < 0x80) (noCapital : c.toNat < 0x41 ∨ 0x5a < c.toNat) :
    lower c = [c] := by
  have small : ¬('A' ≤ c ∧ c ≤ 'Z') := fun capital => by
    have range := toNat_of_capital capital
    omega
  rw [lower, if_pos ascii, if_neg (by simpa using small)]

theorem lower_move
    (listed : s ∈ toLowerShifts) (inside : s.points.has c = true) :
    lower (s.move c) = [s.move c] := by
  rcases move_cases listed inside with start | ⟨above, image⟩
  · exact lower_eq_self_of_lt (by omega) (by omega)
  · apply lower_eq_self
    · intro capital
      have range := toNat_of_capital capital
      omega
    · exact fun dotted =>
        not_mem_of_image listed image (List.mem_cons.mpr (.inl dotted))
    · intro t moves
      rw [Bool.eq_false_iff]
      intro member
      exact not_mem_of_image listed image (List.mem_cons_of_mem _
        (List.mem_flatMap.mpr
          ⟨t, moves, Progression.mem_members_of_has member⟩))

/-- The characters of a lower-case form are in lower case. -/
theorem lower_of_mem_lower (member : d ∈ lower c) : lower d = [d] := by
  rcases mem_lower_cases member with
    ⟨above, below, image⟩ | rfl | rfl | ⟨s, listed, inside, rfl⟩ | ⟨rfl, form⟩
  · exact lower_eq_self_of_lt (by omega) (by omega)
  · decide
  · decide +kernel
  · exact lower_move listed inside
  · exact form

end CaseMapping

end BusReference.Text
