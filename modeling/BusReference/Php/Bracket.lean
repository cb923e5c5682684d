import BusReference.Php.Fault

/-!
# Brackets

Stretches of tokens that brackets enclose, and lists at whose top level commas separate items.
-/

namespace BusReference.Php

/-- Splits the tokens at the bracket that closes what is already open, `depth` being the number of
brackets of the same kind that are open inside of it. -/
def enclosed (opener closer : Char) (depth : Nat) : List Token → Option (List Token × List Token)
  | [] => none
  | t :: ts =>
    if t = .punct opener then
      (enclosed opener closer (depth + 1) ts).map fun (inner, rest) => (t :: inner, rest)
    else if t = .punct closer then
      match depth with
      | 0 => some ([], ts)
      | depth + 1 => (enclosed opener closer depth ts).map fun (inner, rest) => (t :: inner, rest)
    else (enclosed opener closer depth ts).map fun (inner, rest) => (t :: inner, rest)

/-- The enclosed tokens, the closing bracket and the rest make up the tokens. -/
theorem eq_of_enclosed {opener closer : Char} {depth : Nat} {ts inner rest : List Token}
    (h : enclosed opener closer depth ts = some (inner, rest)) :
    ts = inner ++ .punct closer :: rest := by
  induction ts generalizing depth inner with
  | nil => simp [enclosed] at h
  | cons t ts ih =>
    unfold enclosed at h
    split at h
    · simp only [Option.map_eq_some_iff, Prod.mk.injEq, Prod.exists] at h
      obtain ⟨inner', rest', h, rfl, rfl⟩ := h
      simp [ih h]
    · split at h
      · rename_i closes
        split at h
        · simp only [Option.some.injEq, Prod.mk.injEq] at h
          obtain ⟨rfl, rfl⟩ := h
          simp [closes]
        · simp only [Option.map_eq_some_iff, Prod.mk.injEq, Prod.exists] at h
          obtain ⟨inner', rest', h, rfl, rfl⟩ := h
          simp [ih h]
      · simp only [Option.map_eq_some_iff, Prod.mk.injEq, Prod.exists] at h
        obtain ⟨inner', rest', h, rfl, rfl⟩ := h
        simp [ih h]

/-- The tokens inside an open bracket and those after it, or the fault that it is not closed. -/
def closeBracket (opener closer : Char) (ts : List Token) :
    Except Fault (List Token × List Token) :=
  match enclosed opener closer 0 ts with
  | some split => .ok split
  | none => .error (.noCloser closer)

theorem eq_of_closeBracket {opener closer : Char} {ts inner rest : List Token}
    (h : closeBracket opener closer ts = .ok (inner, rest)) :
    ts = inner ++ .punct closer :: rest := by
  unfold closeBracket at h
  split at h
  · rename_i split h'
    cases h
    exact eq_of_enclosed h'
  · cases h

theorem length_lt_of_closeBracket {opener closer : Char} {ts inner rest : List Token}
    (h : closeBracket opener closer ts = .ok (inner, rest)) : rest.length < ts.length := by
  rw [eq_of_closeBracket h]
  simp only [List.length_append, List.length_cons]
  omega

/-- The number of open brackets after a token, of whatever kind; a closing one too many is
ignored. -/
def nesting (depth : Nat) : Token → Nat
  | .attributeOpen => depth + 1
  | .punct c =>
    if c = '(' ∨ c = '[' ∨ c = '{' then depth + 1
    else if c = ')' ∨ c = ']' ∨ c = '}' then depth - 1
    else depth
  | _ => depth

/-- The items between the commas that stand in no bracket; there is always at least one item. -/
def listItems (depth : Nat) : List Token → List (List Token)
  | [] => [[]]
  | t :: ts =>
    if t = .punct ',' ∧ depth = 0 then [] :: listItems 0 ts
    else match listItems (nesting depth t) ts with
      | first :: others => (t :: first) :: others
      | [] => [[t]]

end BusReference.Php
