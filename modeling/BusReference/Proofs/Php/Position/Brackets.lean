import BusReference.Proofs.Php.Position.Cursor
import BusReference.Proofs.Php.Remainder
import BusReference.Proofs.Php.Balance

/-!
# Brackets and lists by positions

A reader of tokens may keep the list of all tokens and a position in it.  What
such a reader takes is a stretch between two positions, and the number of open
brackets starts with one for the bracket that is open already, so that a closing
bracket takes one away before the number is compared with zero.

A reader that leaves a rest over ends at the place where the rest starts.
-/

namespace BusReference.Php.Position

/-! ## Places -/

/-- A number less another one, which must not be the greater one. -/
def minus (m n : Nat) : Except Stop Nat :=
  if n ≤ m then .ok (m - n) else .error (.defect .underflow)

theorem succ_minus_one (n : Nat) : minus (n + 1) 1 = .ok n :=
  if_pos (Nat.le_add_left 1 n)

section Places

variable {α : Type} {xs rest : List α} {pos : Nat} {x : α}

/-- The position at which the rest of a list starts. -/
def place (xs rest : List α) : Nat := xs.length - rest.length

theorem drop_place (later : rest <:+ xs.drop pos) :
    xs.drop (place xs rest) = rest :=
  (List.suffix_iff_eq_drop.mp (later.trans (List.drop_suffix pos xs))).symm

theorem place_le (xs rest : List α) : place xs rest ≤ xs.length :=
  Nat.sub_le _ _

theorem place_drop (inside : pos ≤ xs.length) : place xs (xs.drop pos) = pos := by
  rw [place, List.length_drop]
  omega

theorem lt_of_getElem? (next : xs[pos]? = some x) : pos < xs.length :=
  (List.getElem?_eq_some_iff.mp next).1

theorem sub_lt_of_getElem? (next : xs[pos]? = some x) :
    xs.length - (pos + 1) < xs.length - pos :=
  Nat.sub_lt_sub_left (lt_of_getElem? next) (Nat.lt_succ_self pos)

theorem drop_of_getElem? (next : xs[pos]? = some x) :
    xs.drop pos = x :: xs.drop (pos + 1) := by
  obtain ⟨inside, same⟩ := List.getElem?_eq_some_iff.mp next
  rw [List.drop_eq_getElem_cons inside, same]

theorem drop_of_getElem?_none (next : xs[pos]? = none) : xs.drop pos = [] :=
  List.drop_eq_nil_of_le (List.getElem?_eq_none_iff.mp next)

/-- Where no element stands, nothing is left over. -/
theorem eq_place_nil (inside : pos ≤ xs.length) (next : xs[pos]? = none) :
    pos = place xs [] :=
  Nat.le_antisymm inside (List.getElem?_eq_none_iff.mp next)

theorem getElem?_of_drop (left : xs.drop pos = x :: rest) :
    xs[pos]? = some x := by
  rw [← List.head?_drop, left, List.head?_cons]

/-- What a reader leaves over after an element starts behind the element. -/
theorem lt_place
    (inside : pos < xs.length) (later : rest <:+ xs.drop (pos + 1)) :
    pos < place xs rest := by
  have shorter := later.length_le
  rw [List.length_drop] at shorter
  rw [place]
  omega

/-- The stretch from a position to the place of a rest is what stands before the
rest. -/
theorem slice_place
    {stretch : List α} (inside : pos ≤ xs.length)
    (split : xs.drop pos = stretch ++ rest) :
    slice xs pos (place xs rest) = .ok stretch := by
  have length : xs.length - pos = stretch.length + rest.length := by
    rw [← List.length_drop, split, List.length_append]
  have width : place xs rest - pos = stretch.length := by
    rw [place]
    omega
  rw [slice_of_le (by rw [place]; omega) (place_le xs rest), split, width,
    List.take_left]

/-- The stretch up to an element, and the element. -/
theorem take_drop_succ
    {start : Nat} (before : start ≤ pos) (next : xs[pos]? = some x) :
    (xs.drop start).take (pos + 1 - start) =
      (xs.drop start).take (pos - start) ++ [x] := by
  have here : (xs.drop start)[pos - start]? = some x := by
    rw [List.getElem?_drop, Nat.add_sub_cancel' before, next]
  rw [Nat.succ_sub before, Nat.succ_eq_add_one, List.take_add_one, here]
  rfl

/-- The outcome of a reader that ends at a position instead of leaving a rest
over. -/
def placed {β : Type} (xs : List α) (outcome : Except Fault (β × List α)) :
    Except Stop (β × Nat) :=
  match outcome with
  | .error fault => .error (.fault fault)
  | .ok (value, rest) => .ok (value, place xs rest)

theorem exists_of_placed
    {β : Type} {outcome : Except Fault (β × List α)} {value : β} {stop : Nat}
    (done : placed xs outcome = .ok (value, stop)) :
    ∃ rest, outcome = .ok (value, rest) ∧ stop = place xs rest := by
  rcases outcome with fault | ⟨read, rest⟩
  · cases done
  · cases done
    exact ⟨rest, rfl, rfl⟩

theorem exists_of_placed_eq_error
    {β : Type} {outcome : Except Fault (β × List α)} {stop : Stop}
    (failed : placed xs outcome = .error stop) :
    ∃ fault, outcome = .error fault ∧ stop = .fault fault := by
  rcases outcome with fault | ⟨read, rest⟩
  · cases failed
    exact ⟨fault, rfl, rfl⟩
  · cases failed

/-- The same for a reader that gives nothing but the rest. -/
def placedRest (xs : List α) (outcome : Except Fault (List α)) :
    Except Stop Nat :=
  match outcome with
  | .error fault => .error (.fault fault)
  | .ok rest => .ok (place xs rest)

end Places

/-! ## Brackets -/

section Brackets

variable (tokens : List Token)

/-- Moves on to the bracket that closes what is open, and takes the stretch from
`start` on before it. -/
def closeBracketFrom (opener closer : Char) (start depth pos : Nat) :
    Except Stop (List Token × Nat) :=
  match next : tokens[pos]? with
  | none => .error (.fault (.noCloser closer))
  | some t =>
    have := lt_of_getElem? next
    if t = .punct opener then
      closeBracketFrom opener closer start (depth + 1) (pos + 1)
    else if t = .punct closer then
      match minus depth 1 with
      | .error stop => .error stop
      | .ok 0 => do
        let stop ← minus (pos + 1) 1
        let inner ← slice tokens start stop
        return (inner, pos + 1)
      | .ok (depth + 1) =>
        closeBracketFrom opener closer start (depth + 1) (pos + 1)
    else closeBracketFrom opener closer start depth (pos + 1)
  termination_by tokens.length - pos

/-- The tokens inside an open bracket, and the position behind the bracket that
closes it. -/
def closeBracket (opener closer : Char) (pos : Nat) :
    Except Stop (List Token × Nat) :=
  closeBracketFrom tokens opener closer pos 1 pos

variable {tokens}

/-- What the brackets that are open enclose, given what they enclose from a
position on. -/
def enclosedFrom (tokens : List Token) (closer : Char) (start pos : Nat) :
    Option (List Token × List Token) → Except Stop (List Token × Nat)
  | none => .error (.fault (.noCloser closer))
  | some (inner, rest) =>
    .ok ((tokens.drop start).take (pos - start) ++ inner, place tokens rest)

theorem enclosedFrom_succ
    {closer : Char} {start pos : Nat} {t : Token} (before : start ≤ pos)
    (next : tokens[pos]? = some t)
    (split : Option (List Token × List Token)) :
    enclosedFrom tokens closer start (pos + 1) split =
      enclosedFrom tokens closer start pos
        (split.map fun (inner, rest) => (t :: inner, rest)) := by
  cases split with
  | none => rfl
  | some split =>
      rw [enclosedFrom, take_drop_succ before next, List.append_assoc]
      rfl

/-- One bracket is open when the loop starts, and none where the enclosed tokens
are split off. -/
theorem closeBracketFrom_eq
    {opener closer : Char} {start depth pos : Nat} (before : start ≤ pos) :
    closeBracketFrom tokens opener closer start (depth + 1) pos =
      enclosedFrom tokens closer start pos
        (enclosed opener closer depth (tokens.drop pos)) := by
  generalize opened : depth + 1 = n
  fun_induction closeBracketFrom tokens opener closer start n pos
    generalizing depth with
  | case1 n pos next =>
      rw [drop_of_getElem?_none next]
      rfl
  | case2 n pos next inside ih =>
      rw [ih (Nat.le_succ_of_le before) (congrArg (· + 1) opened),
        enclosedFrom_succ before next, drop_of_getElem? next,
        enclosed_opener]
  | case3 n pos stop fails next inside other =>
      rw [← opened, succ_minus_one] at fails
      cases fails
  | case4 n pos closes next inside other =>
      rw [← opened, succ_minus_one] at closes
      cases closes
      have within : pos ≤ tokens.length := Nat.le_of_lt inside
      have later : pos + 1 = place tokens (tokens.drop (pos + 1)) :=
        (place_drop inside).symm
      rw [succ_minus_one, drop_of_getElem? next, enclosed, if_neg other,
        if_pos rfl]
      change (slice tokens start pos >>= _) = _
      rw [slice_of_le before within, enclosedFrom, List.append_nil, ← later]
      rfl
  | case5 n pos m deeper next inside other ih =>
      rw [← opened, succ_minus_one] at deeper
      cases deeper
      rw [ih (Nat.le_succ_of_le before) rfl, enclosedFrom_succ before next,
        drop_of_getElem? next, enclosed, if_neg other, if_pos rfl]
  | case6 n pos t next inside notOpener notCloser ih =>
      rw [ih (Nat.le_succ_of_le before) opened,
        enclosedFrom_succ before next, drop_of_getElem? next,
        enclosed_other _ _ notOpener notCloser]

theorem closeBracket_eq (opener closer : Char) (pos : Nat) :
    closeBracket tokens opener closer pos =
      placed tokens (Php.closeBracket opener closer (tokens.drop pos)) := by
  rw [closeBracket, closeBracketFrom_eq (Nat.le_refl pos), Php.closeBracket]
  cases enclosed opener closer 0 (tokens.drop pos) with
  | none => rfl
  | some split =>
      rw [enclosedFrom, Nat.sub_self]
      rfl

end Brackets

/-! ## Lists -/

section Lists

variable (tokens : List Token)

/-- Splits a list at the commas of its top level, from `start` on.  After the
last comma an item counts only if it has tokens. -/
def splitListFrom (start depth pos : Nat) : Except Stop (List (List Token)) :=
  match next : tokens[pos]? with
  | none =>
    if start < tokens.length then
      (slice tokens start tokens.length).map ([·])
    else .ok []
  | some t =>
    have := lt_of_getElem? next
    if t = .punct ',' ∧ depth = 0 then
      match slice tokens start pos with
      | .error stop => .error stop
      | .ok item => (splitListFrom (pos + 1) 0 (pos + 1)).map (item :: ·)
    else splitListFrom start (nesting depth t) (pos + 1)
  termination_by tokens.length - pos

/-- The items of a list. -/
def splitList : Except Stop (List (List Token)) := splitListFrom tokens 0 0 0

variable {tokens}

/-- The items without an empty one at the end. -/
def withoutEmptyEnd (items : List (List Token)) : List (List Token) :=
  if items.getLast? = some [] then items.dropLast else items

theorem withoutEmptyEnd_cons
    (item : List Token) {items : List (List Token)} (more : items ≠ []) :
    withoutEmptyEnd (item :: items) = item :: withoutEmptyEnd items := by
  obtain ⟨first, others, rfl⟩ := List.exists_cons_of_ne_nil more
  rw [withoutEmptyEnd, withoutEmptyEnd, List.getLast?_cons_cons]
  split <;> rfl

theorem withoutEmptyEnd_singleton {item : List Token} (filled : item ≠ []) :
    withoutEmptyEnd [item] = [item] :=
  if_neg fun same => filled (Option.some.inj same)

theorem modifyHead_nil_append (items : List (List Token)) :
    items.modifyHead ([] ++ ·) = items := by
  cases items <;> rfl

/-- The first item that is split off starts with the stretch from `start` on. -/
theorem splitListFrom_eq
    {start depth pos : Nat} (before : start ≤ pos)
    (inside : pos ≤ tokens.length) :
    splitListFrom tokens start depth pos =
      .ok (withoutEmptyEnd ((listItems depth (tokens.drop pos)).modifyHead
        ((tokens.drop start).take (pos - start) ++ ·))) := by
  fun_induction splitListFrom tokens start depth pos with
  | case1 start depth pos next more =>
      have ended : pos = tokens.length :=
        Nat.le_antisymm inside (List.getElem?_eq_none_iff.mp next)
      have filled : (tokens.drop start).take (tokens.length - start) ≠ [] := by
        simp
        omega
      rw [slice_of_le (Nat.le_of_lt more) (Nat.le_refl _),
        drop_of_getElem?_none next, ended, listItems, List.modifyHead_cons,
        List.append_nil, withoutEmptyEnd_singleton filled]
      rfl
  | case2 start depth pos next noMore =>
      rw [drop_of_getElem?_none next, List.drop_eq_nil_of_le (by omega),
        List.take_nil]
      rfl
  | case3 start depth pos t next within comma stop fails =>
      rw [slice_of_le before inside] at fails
      cases fails
  | case4 start depth pos t next within comma item taken ih =>
      rw [slice_of_le before inside] at taken
      cases taken
      rw [ih (Nat.le_refl _) within, drop_of_getElem? next, listItems,
        if_pos comma, Nat.sub_self, List.take_zero, modifyHead_nil_append,
        List.modifyHead_cons, List.append_nil,
        withoutEmptyEnd_cons _ (listItems_ne_nil _ _)]
      rfl
  | case5 start depth pos t next within other ih =>
      rw [ih (Nat.le_succ_of_le before) within, take_drop_succ before next,
        drop_of_getElem? next, listItems_cons other,
        List.modifyHead_modifyHead]
      simp only [Function.comp_def, List.append_assoc, List.singleton_append]

theorem splitList_eq :
    splitList tokens = .ok (withoutEmptyEnd (listItems 0 tokens)) := by
  rw [splitList, splitListFrom_eq (Nat.le_refl 0) (Nat.zero_le _),
    Nat.sub_self, List.take_zero, modifyHead_nil_append, List.drop_zero]

end Lists

end BusReference.Php.Position
