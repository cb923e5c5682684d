import BusReference.Proofs.Php.Balance

/-!
# What stands inside of brackets

Readers that pass over brackets take balanced tokens, whatever these are: if a
bracket is closed, the tokens up to its closer are balanced.  This is the other
direction of the statements about readers that come out of balanced tokens as
they went in.
-/

namespace BusReference.Php

open BracketPair (squares attributes)

/-- Balanced tokens, with a closer after each of `depth` stretches of them. -/
inductive Closes (pairs : List BracketPair) (closer : Token) :
    Nat → List Token → Prop
  | balanced {ts : List Token} (inside : Balanced pairs ts) :
      Closes pairs closer 0 ts
  | closing {depth : Nat} {ts us : List Token}
      (inside : Balanced pairs ts) (later : Closes pairs closer depth us) :
      Closes pairs closer (depth + 1) (ts ++ closer :: us)

namespace Closes

variable
    {pairs : List BracketPair} {closer t : Token} {depth : Nat}
    {ts us : List Token}

theorem append
    (first : Balanced pairs ts) (second : Closes pairs closer depth us) :
    Closes pairs closer depth (ts ++ us) := by
  cases second with
  | balanced inside => exact .balanced (first.append inside)
  | closing inside later =>
      rw [← List.append_assoc]
      exact .closing (first.append inside) later

theorem plain
    (noBracket : IsPlain pairs t) (later : Closes pairs closer depth ts) :
    Closes pairs closer depth (t :: ts) :=
  append (.plain noBracket .nil) later

/-- An opener takes one of the closers. -/
theorem opening
    {opener : Token} (listed : (opener, closer) ∈ pairs)
    (later : Closes pairs closer (depth + 1) ts) :
    Closes pairs closer depth (opener :: ts) := by
  cases later with
  | @closing _ first us inside later =>
      have group : Balanced pairs (opener :: (first ++ closer :: [])) :=
        .group listed inside .nil
      have joined := append group later
      simpa using joined

theorem closer_cons (later : Closes pairs closer depth ts) :
    Closes pairs closer (depth + 1) (closer :: ts) :=
  closing .nil later

theorem balanced_of_zero (closed : Closes pairs closer 0 ts) :
    Balanced pairs ts := by
  cases closed with
  | balanced inside => exact inside

end Closes

/-! ## Brackets of one kind -/

theorem closes_of_enclosed
    {opener closer : Char} {depth : Nat} {ts inner rest : List Token}
    (closed : enclosed opener closer depth ts = some (inner, rest)) :
    Closes [(.punct opener, .punct closer)] (.punct closer) depth inner := by
  induction ts generalizing depth inner with
  | nil => cases closed
  | cons t ts ih =>
      rw [enclosed.eq_def] at closed
      dsimp only at closed
      split at closed
      · rename_i opens
        obtain ⟨⟨inside, after⟩, later, same⟩ :=
          Option.map_eq_some_iff.mp closed
        cases same
        rw [opens]
        exact .opening List.mem_cons_self (ih later)
      · rename_i other
        split at closed
        · rename_i closes
          cases depth with
          | zero =>
              cases closed
              exact .balanced .nil
          | succ depth =>
              obtain ⟨⟨inside, after⟩, later, same⟩ :=
                Option.map_eq_some_iff.mp closed
              cases same
              rw [closes]
              exact (ih later).closer_cons
        · rename_i notCloser
          obtain ⟨⟨inside, after⟩, later, same⟩ :=
            Option.map_eq_some_iff.mp closed
          cases same
          refine .plain ?_ (ih later)
          rintro pair listed
          rw [List.mem_singleton.mp listed]
          exact ⟨other, notCloser⟩

theorem balanced_of_closeBracket
    {opener closer : Char} {ts inner rest : List Token}
    (closed : closeBracket opener closer ts = .ok (inner, rest)) :
    Balanced [(.punct opener, .punct closer)] inner := by
  rw [closeBracket] at closed
  split at closed
  · rename_i split found
    cases closed
    exact (closes_of_enclosed found).balanced_of_zero
  · cases closed

/-! ## Groups of attributes -/

namespace Attribute

variable {depth : Nat} {ts : List Token}

theorem skipGroup_group
    (balanced : Balanced groupPairs ts) (rest : List Token) :
    skipGroup 0 (ts ++ .punct ']' :: rest) = rest := by
  rw [skipGroup_balanced balanced]
  simp [skipGroup]

/-- What is skipped reaches to the closer of the group, or to the end. -/
def SkipsGroup (depth : Nat) (ts rest : List Token) : Prop :=
  rest = [] ∨ ∃ inner, ts = inner ++ .punct ']' :: rest ∧
    Closes groupPairs (.punct ']') depth inner

theorem SkipsGroup.cons
    {depth deeper : Nat} {t : Token} {ts rest : List Token}
    (skips : SkipsGroup deeper ts rest)
    (step : ∀ inner, Closes groupPairs (.punct ']') deeper inner →
      Closes groupPairs (.punct ']') depth (t :: inner)) :
    SkipsGroup depth (t :: ts) rest := by
  refine skips.imp_right ?_
  rintro ⟨inner, split, closes⟩
  exact ⟨t :: inner, congrArg (t :: ·) split, step inner closes⟩

theorem skipsGroup (depth : Nat) (ts : List Token) :
    SkipsGroup depth ts (skipGroup depth ts) := by
  fun_induction skipGroup depth ts with
  | case1 => exact .inl rfl
  | case2 depth ts ih => exact ih.cons fun _ => .opening (by decide)
  | case3 depth ts ih => exact ih.cons fun _ => .opening (by decide)
  | case4 ts => exact .inr ⟨[], rfl, .balanced .nil⟩
  | case5 ts depth _ ih => exact ih.cons fun _ => .closer_cons
  | case6 depth c ts notOpener notCloser ih =>
      refine ih.cons fun _ => .plain ?_
      simp [IsPlain, groupPairs, squares, attributes, notOpener, notCloser]
  | case7 depth t ts notGroup noMark ih =>
      refine ih.cons fun _ => .plain ?_
      have apart : t ≠ .attributeOpen ∧ ∀ c, t ≠ .punct c := ⟨notGroup, noMark⟩
      simp [IsPlain, groupPairs, squares, attributes, apart]

/-- The tokens of a group are balanced, as far as its brackets go. -/
theorem exists_group_of_skipGroup
    {ts : List Token} (left : skipGroup 0 ts ≠ []) :
    ∃ inner, Balanced groupPairs inner ∧
      ts = inner ++ .punct ']' :: skipGroup 0 ts := by
  obtain ⟨inner, split, closes⟩ := (skipsGroup 0 ts).resolve_left left
  exact ⟨inner, closes.balanced_of_zero, split⟩

end Attribute

end BusReference.Php
