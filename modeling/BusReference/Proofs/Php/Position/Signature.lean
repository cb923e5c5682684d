import BusReference.Proofs.Php.Position.Brackets

/-!
# Parameters and types by positions

A parameter is read with a position in the tokens of its item, and a return type
is the stretch of tokens up to where it ends.  The quotes of a default value are
taken away by a stretch from the second character to the last one.
-/

namespace BusReference.Php.Position

open DefaultValue (decodeSingle decodeDouble keyword? number?)

/-! ## Default values -/

/-- What stands between two quotes of the given kind, if the text starts and ends
with them.  A quote is one byte, so the stretch is the same in bytes. -/
def unquote (quote : Char) (cs : List Char) : Except Stop (Option (List Char)) :=
  if 2 ≤ cs.length ∧ cs.head? = some quote ∧ cs.getLast? = some quote then do
    let stop ← minus cs.length 1
    let inner ← slice cs 1 stop
    return some inner
  else .ok none

/-- The value of an expression without blanks at its ends, if it stands in
quotes. -/
def quoted? (cs : List Char) : Except Stop (Option DefaultValue) := do
  match ← unquote '\'' cs with
  | some inner => return some (.string (String.ofList (decodeSingle inner)))
  | none =>
    let inner ← unquote '"' cs
    return inner.map fun inner => .string (String.ofList (decodeDouble inner))

/-- The value of the text of a default expression. -/
def parseDefault (text : String) : Except Stop DefaultValue :=
  let cs := Text.Blank.trim text.toList
  let trimmed := String.ofList cs
  match keyword? trimmed.toLower with
  | some value => .ok value
  | none =>
    match number? cs with
    | some value => .ok value
    | none => (quoted? cs).map (·.getD (.expression trimmed))

theorem unquote_eq (quote : Char) (cs : List Char) :
    unquote quote cs = .ok (DefaultValue.unquote quote cs) := by
  cases cs with
  | nil => rfl
  | cons c cs =>
      rw [unquote, DefaultValue.unquote]
      cases cs with
      | nil =>
          rw [if_neg (by simp), if_neg (by simp)]
      | cons d cs =>
          have last : (c :: d :: cs).getLast? = (d :: cs).getLast? :=
            List.getLast?_cons_cons
          have long : 2 ≤ (c :: d :: cs).length := Nat.le_add_left 2 _
          simp only [last, long, List.head?_cons, Option.some.injEq, true_and]
          split
          · have taken : slice (c :: d :: cs) 1 (d :: cs).length =
                .ok (d :: cs).dropLast := by
              have before : 1 ≤ (d :: cs).length := Nat.le_add_left 1 _
              rw [slice_of_le before (Nat.le_succ _), List.dropLast_eq_take]
              rfl
            rw [List.length_cons, succ_minus_one]
            change (slice _ _ _ >>= _) = _
            rw [taken]
            rfl
          · rfl

theorem quoted?_eq (cs : List Char) :
    quoted? cs = .ok (DefaultValue.quoted? cs) := by
  rw [quoted?, DefaultValue.quoted?, unquote_eq, unquote_eq]
  change (match DefaultValue.unquote '\'' cs with
    | some inner => _ | none => _) = _
  cases DefaultValue.unquote '\'' cs <;> rfl

theorem parseDefault_eq (text : String) :
    parseDefault text = .ok (DefaultValue.parse text) := by
  simp only [parseDefault, DefaultValue.parse, quoted?_eq]
  cases keyword? _ with
  | some value => rfl
  | none =>
      cases number? _ with
      | some value => rfl
      | none => rfl

/-! ## Parameters -/

section Parameters

variable (tokens : List Token) (scope : Scope)

/-- Moves on inside a group of attributes, as long as brackets are open and
tokens follow. -/
def skipAttributes (depth pos : Nat) : Except Stop Nat :=
  if 0 < depth ∧ pos + 1 < tokens.length then
    match tokens[pos + 1]? with
    | none => .error (.defect .outOfRange)
    | some t =>
      if t = .punct '[' ∨ t = .attributeOpen then
        skipAttributes (depth + 1) (pos + 1)
      else if t = .punct ']' then
        match minus depth 1 with
        | .error stop => .error stop
        | .ok depth => skipAttributes depth (pos + 1)
      else skipAttributes depth (pos + 1)
  else .ok pos
  termination_by tokens.length - pos

/-- The default value behind the variable of a parameter. -/
def readDefault (pos : Nat) : Except Stop (Option DefaultValue) :=
  if tokens[pos + 1]? = some (.punct '=') then do
    let value ← slice tokens (pos + 2) tokens.length
    let value ← parseDefault (Token.join value)
    return some value
  else .ok none

/-- Reads a parameter of which the given tokens of the type, newest first, are
read already. -/
def readParameterFrom (typeTokens : List Token) (variadic : Bool) (pos : Nat) :
    Except Stop (Option Parameter) :=
  if pos < tokens.length then
    match tokens[pos]? with
    | none => .error (.defect .outOfRange)
    | some .attributeOpen =>
      match skipAttributes tokens 1 pos with
      | .error stop => .error stop
      | .ok last =>
        if pos ≤ last then readParameterFrom typeTokens variadic (last + 1)
        else .error (.defect .standstill)
    | some .ellipsis => readParameterFrom typeTokens true (pos + 1)
    | some (.variable name) => do
      let value ← readDefault tokens pos
      return some
        (Signature.parameter scope typeTokens.reverse variadic name value)
    | some t =>
      if t = .punct '&' ∧
          Signature.startsVariable (tokens[pos + 1]?.toList) then
        readParameterFrom typeTokens variadic (pos + 1)
      else if typeTokens.isEmpty && Signature.isModifier t then
        readParameterFrom typeTokens variadic (pos + 1)
      else readParameterFrom (t :: typeTokens) variadic (pos + 1)
  else .ok none
  termination_by tokens.length - pos

/-- Reads what stands between the parentheses of a parameter list. -/
def readParameters : Except Stop (List Parameter) := do
  let items ← splitList tokens
  let parameters ←
    items.mapM fun item => readParameterFrom item scope [] false 0
  return parameters.filterMap id

variable {tokens} {scope}

theorem skipGroup_cons (depth : Nat) (t : Token) (ts : List Token) :
    Attribute.skipGroup depth (t :: ts) =
      if t = .punct '[' ∨ t = .attributeOpen then
        Attribute.skipGroup (depth + 1) ts
      else if t = .punct ']' then
        match depth with
        | 0 => ts
        | depth + 1 => Attribute.skipGroup depth ts
      else Attribute.skipGroup depth ts := by
  cases t with
  | punct c => cases depth <;> simp [Attribute.skipGroup]
  | attributeOpen => simp [Attribute.skipGroup]
  | _ => simp [Attribute.skipGroup]

/-- With no bracket open, the token at the position closes the group. -/
theorem skipAttributes_zero (pos : Nat) :
    skipAttributes tokens 0 pos = .ok pos := by
  rw [skipAttributes, if_neg (fun opened => Nat.lt_irrefl 0 opened.1)]

theorem skipAttributes_eq
    {depth pos : Nat} (inside : pos < tokens.length) :
    (skipAttributes tokens (depth + 1) pos).map (· + 1) =
      .ok (place tokens
        (Attribute.skipGroup depth (tokens.drop (pos + 1)))) := by
  generalize opened : depth + 1 = n
  fun_induction skipAttributes tokens n pos generalizing depth with
  | case1 n pos more next =>
      exact absurd more.2 (List.getElem?_eq_none_iff.mp next).not_gt
  | case2 n pos more t next opens ih =>
      rw [ih more.2 (congrArg (· + 1) opened), drop_of_getElem? next,
        skipGroup_cons, if_pos opens]
  | case3 n pos more stop fails next other =>
      rw [← opened, succ_minus_one] at fails
      cases fails
  | case4 n pos more m closes next other ih =>
      rw [← opened, succ_minus_one] at closes
      cases closes
      rw [drop_of_getElem? next, skipGroup_cons, if_neg other, if_pos rfl]
      cases m with
      | zero =>
          rw [skipAttributes_zero, place_drop more.2]
          rfl
      | succ depth => exact ih more.2 rfl
  | case5 n pos more t next other notCloser ih =>
      rw [ih more.2 opened, drop_of_getElem? next, skipGroup_cons,
        if_neg other, if_neg notCloser]
  | case6 n pos ended =>
      have last : tokens.length = pos + 1 := by omega
      rw [← last, List.drop_length]
      exact congrArg Except.ok last.symm

/-- Skipping the attributes of one group does not fail. -/
theorem map_skipAttributes_one
    {pos : Nat} (inside : pos < tokens.length) :
    (skipAttributes tokens 1 pos).map (· + 1) =
      .ok (place tokens (Attribute.skipGroup 0 (tokens.drop (pos + 1)))) :=
  skipAttributes_eq inside

/-- The last token of a group of attributes does not stand before the first one,
and what follows it is what is left over. -/
theorem drop_of_skipAttributes
    {pos last : Nat} (inside : pos < tokens.length)
    (done : skipAttributes tokens 1 pos = .ok last) :
    pos ≤ last ∧
      tokens.drop (last + 1) =
        Attribute.skipGroup 0 (tokens.drop (pos + 1)) := by
  have skipped := map_skipAttributes_one inside
  have later := Attribute.skipGroup_isSuffix 0 (tokens.drop (pos + 1))
  rw [done] at skipped
  have behind : last + 1 = _ := Except.ok.inj skipped
  have further := lt_place inside later
  rw [behind, drop_place later]
  exact ⟨by omega, rfl⟩

theorem readDefault_eq (pos : Nat) :
    readDefault tokens pos =
      .ok (Signature.readDefault (tokens.drop (pos + 1))) := by
  rw [readDefault]
  split
  · rename_i equals
    have within : pos + 2 ≤ tokens.length := lt_of_getElem? equals
    rw [slice_of_le within (Nat.le_refl _), drop_of_getElem? equals,
      ← List.length_drop, List.take_length]
    change (parseDefault _ >>= _) = _
    rw [parseDefault_eq]
    rfl
  · rename_i other
    rw [Signature.readDefault]
    exact fun value left => other (getElem?_of_drop left)

theorem startsVariable_eq (pos : Nat) :
    Signature.startsVariable tokens[pos]?.toList =
      Signature.startsVariable (tokens.drop pos) := by
  cases next : tokens[pos]? with
  | none => rw [drop_of_getElem?_none next]; rfl
  | some t => rw [drop_of_getElem? next]; cases t <;> rfl

theorem readParameterFrom_eq
    (typeTokens : List Token) (variadic : Bool) (pos : Nat) :
    readParameterFrom tokens scope typeTokens variadic pos =
      .ok (Signature.readParameterAfter scope typeTokens variadic
        (tokens.drop pos)) := by
  fun_induction readParameterFrom tokens scope typeTokens variadic pos with
  | case1 typeTokens variadic pos inside next =>
      exact absurd inside (List.getElem?_eq_none_iff.mp next).not_gt
  | case2 typeTokens variadic pos inside next stop fails =>
      have skipped := map_skipAttributes_one inside
      rw [fails] at skipped
      cases skipped
  | case3 typeTokens variadic pos inside next last done later ih =>
      rw [ih, (drop_of_skipAttributes inside done).2, drop_of_getElem? next,
        Signature.readParameterAfter]
  | case4 typeTokens variadic pos inside next last done still =>
      exact absurd (drop_of_skipAttributes inside done).1 still
  | case5 typeTokens variadic pos inside next ih =>
      rw [ih, drop_of_getElem? next, Signature.readParameterAfter]
  | case6 typeTokens variadic pos inside name next =>
      rw [readDefault_eq, drop_of_getElem? next,
        Signature.readParameterAfter]
      rfl
  | case7 typeTokens variadic pos inside t noAttribute noDots noVariable next
      reference ih =>
      rw [startsVariable_eq] at reference
      rw [ih, drop_of_getElem? next, Signature.readParameterAfter,
        if_pos reference] <;> assumption
  | case8 typeTokens variadic pos inside t noAttribute noDots noVariable next
      other modifier ih =>
      rw [startsVariable_eq] at other
      rw [ih, drop_of_getElem? next, Signature.readParameterAfter,
        if_neg other, if_pos modifier] <;> assumption
  | case9 typeTokens variadic pos inside t noAttribute noDots noVariable next
      other noModifier ih =>
      rw [startsVariable_eq] at other
      rw [ih, drop_of_getElem? next, Signature.readParameterAfter,
        if_neg other, if_neg noModifier] <;> assumption
  | case10 typeTokens variadic pos ended =>
      rw [List.drop_eq_nil_of_le (Nat.le_of_not_lt ended),
        Signature.readParameterAfter]

theorem filterMap_withoutEmptyEnd
    {β : Type} {f : List Token → Option β} (nothing : f [] = none)
    (items : List (List Token)) :
    (withoutEmptyEnd items).filterMap f = items.filterMap f := by
  rw [withoutEmptyEnd]
  split
  · rename_i last
    obtain ⟨others, rfl⟩ := List.getLast?_eq_some_iff.mp last
    rw [List.dropLast_concat, List.filterMap_append, List.filterMap_cons,
      nothing, List.filterMap_nil, List.append_nil]
  · rfl

theorem readParameters_eq :
    readParameters tokens scope =
      .ok (Signature.readParameters scope tokens) := by
  have each : (fun item => readParameterFrom item scope [] false 0) =
      fun item => pure (Signature.readParameter scope item) := by
    funext item
    rw [readParameterFrom_eq, List.drop_zero]
    rfl
  have empty : Signature.readParameter scope [] = none := by
    rw [Signature.readParameter, Signature.readParameterAfter]
  rw [readParameters, splitList_eq, each]
  simp only [List.mapM_pure]
  change Except.ok (((withoutEmptyEnd _).map _).filterMap id) = _
  rw [List.filterMap_map, Function.id_comp, filterMap_withoutEmptyEnd empty]
  rfl

end Parameters

end BusReference.Php.Position
