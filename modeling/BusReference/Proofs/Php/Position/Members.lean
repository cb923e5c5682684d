import BusReference.Proofs.Php.Position.Signature

/-!
# Bodies of types by positions

The members of a body, read with a position in the tokens of the whole file.
Every reader ends where the rest starts that the corresponding reader of lists
leaves over.  The reader of a body starts with one open brace, so that it takes
a brace away before it looks whether the body is closed.
-/

namespace BusReference.Php.Position

variable (tokens : List Token)

/-! ## Skipping -/

/-- The position behind the next such punctuation mark, or the end. -/
def skipThrough (c : Char) (pos : Nat) : Nat :=
  match next : tokens[pos]? with
  | none => pos
  | some t =>
    have := lt_of_getElem? next
    if t = .punct c then pos + 1 else skipThrough c (pos + 1)
  termination_by tokens.length - pos

/-- Moves on over a token that passes the test. -/
def skipIf (p : Token → Bool) (pos : Nat) : Nat :=
  if tokens[pos]?.any p then pos + 1 else pos

/-- Moves on to where a type ends. -/
def skipType (pos : Nat) : Nat :=
  match next : tokens[pos]? with
  | none => pos
  | some t =>
    have := lt_of_getElem? next
    if Body.endsType t then pos else skipType (pos + 1)
  termination_by tokens.length - pos

variable {tokens} {pos : Nat}

theorem skipThrough_eq (c : Char) (inside : pos ≤ tokens.length) :
    skipThrough tokens c pos =
      place tokens (Scope.dropThrough c (tokens.drop pos)) := by
  fun_induction skipThrough tokens c pos with
  | case1 pos next =>
      rw [drop_of_getElem?_none next]
      exact eq_place_nil inside next
  | case2 pos next within =>
      rw [drop_of_getElem? next, Scope.dropThrough, if_pos rfl,
        place_drop within]
  | case3 pos t next within other ih =>
      rw [ih within, drop_of_getElem? next, Scope.dropThrough, if_neg other]

theorem drop_skipIf (p : Token → Bool) (pos : Nat) :
    tokens.drop (skipIf tokens p pos) = Body.skipIf p (tokens.drop pos) := by
  rw [skipIf]
  cases next : tokens[pos]? with
  | none => rw [drop_of_getElem?_none next]; exact drop_of_getElem?_none next
  | some t =>
      rw [drop_of_getElem? next, Body.skipIf, Option.any_some]
      split
      · rfl
      · exact drop_of_getElem? next

theorem skipIf_le (p : Token → Bool) (inside : pos ≤ tokens.length) :
    skipIf tokens p pos ≤ tokens.length := by
  rw [skipIf]
  cases next : tokens[pos]? with
  | none => exact inside
  | some t =>
      rw [Option.any_some]
      split
      · exact lt_of_getElem? next
      · exact inside

theorem skipType_eq (inside : pos ≤ tokens.length) :
    skipType tokens pos =
      place tokens ((tokens.drop pos).dropWhile (!Body.endsType ·)) := by
  fun_induction skipType tokens pos with
  | case1 pos next =>
      rw [drop_of_getElem?_none next]
      exact eq_place_nil inside next
  | case2 pos t next within ends =>
      rw [drop_of_getElem? next, List.dropWhile_cons_of_neg (by simp [ends]),
        ← drop_of_getElem? next, place_drop inside]
  | case3 pos t next within goesOn ih =>
      rw [ih within, drop_of_getElem? next,
        List.dropWhile_cons_of_pos (by simp [goesOn])]

/-! ## Attributes and traits -/

section Names

variable (tokens) (scope : Scope)

/-- Reads a group of attributes.  The number of open brackets counts the one
that opened the group. -/
def readAttributesFrom (depth parens : Nat) (expectsName : Bool) (pos : Nat) :
    Except Stop (List String × Nat) :=
  match next : tokens[pos]? with
  | none => .ok ([], pos)
  | some .attributeOpen =>
    readAttributesFrom (depth + 1) parens expectsName (pos + 1)
  | some (.punct c) =>
    if c = '[' then
      readAttributesFrom (depth + 1) parens expectsName (pos + 1)
    else if c = ']' then
      match minus depth 1 with
      | .error stop => .error stop
      | .ok 0 => .ok ([], pos + 1)
      | .ok (depth + 1) =>
        readAttributesFrom (depth + 1) parens expectsName (pos + 1)
    else if c = '(' then
      readAttributesFrom depth (parens + 1) expectsName (pos + 1)
    else if c = ')' then
      readAttributesFrom depth (parens - 1) expectsName (pos + 1)
    else if c = ',' ∧ depth = 1 ∧ parens = 0 then
      readAttributesFrom depth parens true (pos + 1)
    else readAttributesFrom depth parens expectsName (pos + 1)
  | some (.name name) =>
    if expectsName ∧ depth = 1 ∧ parens = 0 then
      (readAttributesFrom depth parens false (pos + 1)).map
        fun (names, stop) => (scope.resolve name :: names, stop)
    else readAttributesFrom depth parens expectsName (pos + 1)
  | some _ => readAttributesFrom depth parens expectsName (pos + 1)
  termination_by tokens.length - pos
  decreasing_by all_goals exact sub_lt_of_getElem? next

/-- Reads a group of attributes after its opening. -/
def readAttributes (pos : Nat) : Except Stop (List String × Nat) :=
  readAttributesFrom tokens scope 1 0 true pos

/-- Reads the names of used traits. -/
def readTraitUse (pos : Nat) : List String × Nat :=
  match next : tokens[pos]? with
  | none => ([], pos)
  | some (.name name) =>
    let (names, stop) := readTraitUse (pos + 1)
    (scope.resolve name :: names, stop)
  | some (.punct c) =>
    if c = '{' then ([], skipThrough tokens '}' (pos + 1))
    else if c = ';' then ([], pos + 1)
    else readTraitUse (pos + 1)
  | some _ => readTraitUse (pos + 1)
  termination_by tokens.length - pos
  decreasing_by all_goals exact sub_lt_of_getElem? next

variable {tokens} {scope}

theorem readGroup_punct
    (depth parens : Nat) (expectsName : Bool) (c : Char) (ts : List Token) :
    Attribute.readGroup scope depth parens expectsName (.punct c :: ts) =
      if c = '[' then
        Attribute.readGroup scope (depth + 1) parens expectsName ts
      else if c = ']' then
        match depth with
        | 0 => ([], ts)
        | depth + 1 => Attribute.readGroup scope depth parens expectsName ts
      else if c = '(' then
        Attribute.readGroup scope depth (parens + 1) expectsName ts
      else if c = ')' then
        Attribute.readGroup scope depth (parens - 1) expectsName ts
      else if c = ',' ∧ depth = 0 ∧ parens = 0 then
        Attribute.readGroup scope depth parens true ts
      else Attribute.readGroup scope depth parens expectsName ts := by
  cases depth <;> rw [Attribute.readGroup]

theorem readAttributesFrom_eq
    {depth parens : Nat} {expectsName : Bool} (inside : pos ≤ tokens.length) :
    readAttributesFrom tokens scope (depth + 1) parens expectsName pos =
      placed tokens (.ok (Attribute.readGroup scope depth parens expectsName
        (tokens.drop pos))) := by
  generalize opened : depth + 1 = n
  fun_induction readAttributesFrom tokens scope n parens expectsName pos
    generalizing depth with
  | case1 n parens expectsName pos next =>
      rw [drop_of_getElem?_none next]
      exact congrArg (fun pos => Except.ok ([], pos)) (eq_place_nil inside next)
  | case2 n parens expectsName pos next ih =>
      rw [ih (lt_of_getElem? next) (congrArg (· + 1) opened),
        drop_of_getElem? next, Attribute.readGroup]
  | case3 n parens expectsName pos next ih =>
      rw [ih (lt_of_getElem? next) (congrArg (· + 1) opened),
        drop_of_getElem? next, readGroup_punct, if_pos rfl]
  | case4 n parens expectsName pos stop fails next other =>
      rw [← opened, succ_minus_one] at fails
      cases fails
  | case5 n parens expectsName pos closes next other =>
      rw [← opened, succ_minus_one] at closes
      cases closes
      rw [drop_of_getElem? next, readGroup_punct, if_neg other, if_pos rfl]
      exact congrArg (fun pos => Except.ok ([], pos))
        (place_drop (lt_of_getElem? next)).symm
  | case6 n parens expectsName pos m closes next other ih =>
      rw [← opened, succ_minus_one] at closes
      cases closes
      rw [ih (lt_of_getElem? next) rfl, drop_of_getElem? next,
        readGroup_punct, if_neg other, if_pos rfl]
  | case7 n parens expectsName pos next noSquare noClose ih =>
      rw [ih (lt_of_getElem? next) opened, drop_of_getElem? next,
        readGroup_punct, if_neg noSquare, if_neg noClose, if_pos rfl]
  | case8 n parens expectsName pos next noSquare noClose noOpen ih =>
      rw [ih (lt_of_getElem? next) opened, drop_of_getElem? next,
        readGroup_punct, if_neg noSquare, if_neg noClose, if_neg noOpen,
        if_pos rfl]
  | case9 n parens expectsName pos c next noSquare noClose noOpen noEnd comma
      ih =>
      have top : c = ',' ∧ depth = 0 ∧ parens = 0 :=
        ⟨comma.1, by omega, comma.2.2⟩
      rw [ih (lt_of_getElem? next) opened, drop_of_getElem? next,
        readGroup_punct, if_neg noSquare, if_neg noClose, if_neg noOpen,
        if_neg noEnd, if_pos top]
  | case10 n parens expectsName pos c next noSquare noClose noOpen noEnd other
      ih =>
      have nested : ¬(c = ',' ∧ depth = 0 ∧ parens = 0) :=
        fun top => other ⟨top.1, by omega, top.2.2⟩
      rw [ih (lt_of_getElem? next) opened, drop_of_getElem? next,
        readGroup_punct, if_neg noSquare, if_neg noClose, if_neg noOpen,
        if_neg noEnd, if_neg nested]
  | case11 n parens expectsName pos name next expected ih =>
      have top : expectsName = true ∧ depth = 0 ∧ parens = 0 :=
        ⟨expected.1, by omega, expected.2.2⟩
      rw [ih (lt_of_getElem? next) opened, drop_of_getElem? next,
        Attribute.readGroup, if_pos top]
      rfl
  | case12 n parens expectsName pos name next other ih =>
      have nested : ¬(expectsName = true ∧ depth = 0 ∧ parens = 0) :=
        fun top => other ⟨top.1, by omega, top.2.2⟩
      rw [ih (lt_of_getElem? next) opened, drop_of_getElem? next,
        Attribute.readGroup, if_neg nested]
  | case13 n parens expectsName pos t noAttribute noPunct noName next ih =>
      rw [ih (lt_of_getElem? next) opened, drop_of_getElem? next,
        Attribute.readGroup] <;> assumption

theorem readAttributes_eq (inside : pos ≤ tokens.length) :
    readAttributes tokens scope pos =
      .ok ((Attribute.read scope (tokens.drop pos)).1,
        place tokens (Attribute.read scope (tokens.drop pos)).2) :=
  readAttributesFrom_eq inside

theorem readTraitUse_eq (inside : pos ≤ tokens.length) :
    readTraitUse tokens scope pos =
      ((Body.readTraitUse scope (tokens.drop pos)).1,
        place tokens (Body.readTraitUse scope (tokens.drop pos)).2) := by
  fun_induction readTraitUse tokens scope pos with
  | case1 pos next =>
      rw [drop_of_getElem?_none next]
      exact congrArg (([], ·)) (eq_place_nil inside next)
  | case2 pos name next names stop read ih =>
      rw [read] at ih
      have later := ih (lt_of_getElem? next)
      rw [drop_of_getElem? next, Body.readTraitUse]
      exact congrArg (fun read => (scope.resolve name :: read.1, read.2)) later
  | case3 pos next =>
      rw [skipThrough_eq '}' (lt_of_getElem? next), drop_of_getElem? next,
        Body.readTraitUse, if_pos rfl]
  | case4 pos next other =>
      rw [drop_of_getElem? next, Body.readTraitUse, if_neg other, if_pos rfl,
        place_drop (lt_of_getElem? next)]
  | case5 pos c next noBrace noEnd ih =>
      rw [ih (lt_of_getElem? next), drop_of_getElem? next, Body.readTraitUse,
        if_neg noBrace, if_neg noEnd]
  | case6 pos t noName noPunct next ih =>
      rw [ih (lt_of_getElem? next), drop_of_getElem? next, Body.readTraitUse]
        <;> assumption

end Names

/-! ## Methods -/

section Methods

variable (tokens) (scope : Scope)

/-- Reads the return type behind a parameter list, if there is one. -/
def readReturnType (pos : Nat) : Except Stop (Option String × Nat) :=
  if tokens[pos]? = some (.punct ':') then do
    let stop := skipType tokens (pos + 1)
    let text ← slice tokens (pos + 1) stop
    return ((Signature.readType scope text).map (·.1), stop)
  else .ok (none, pos)

/-- Skips the body of a method. -/
def skipMethodBody (method : String) (pos : Nat) : Except Stop Nat :=
  match tokens[pos]? with
  | some (.punct ';') => .ok (pos + 1)
  | some (.punct '{') => (closeBracket tokens '{' '}' (pos + 1)).map (·.2)
  | _ => .error (.fault (.noMethodBody method))

/-- Reads a method behind its name. -/
def readNamedMethod (doc : Option String) (name : String) (pos : Nat) :
    Except Stop (Method × Nat) :=
  match tokens[pos]? with
  | some (.punct '(') => do
    let (inner, stop) ← closeBracket tokens '(' ')' (pos + 1)
    let parameters ← readParameters inner scope
    let (returnType, stop) ← readReturnType tokens scope stop
    let stop ← skipMethodBody tokens name stop
    return ({ name, doc, parameters, returnType }, stop)
  | _ => .error (.fault (.noParameterList name))

/-- Reads a method behind its keyword. -/
def readMethod (doc : Option String) (pos : Nat) :
    Except Stop (Method × Nat) :=
  let named := skipIf tokens (· == .punct '&') pos
  match tokens[named]? with
  | some (.name name) => readNamedMethod tokens scope doc name (named + 1)
  | _ => .error (.fault .noMethodName)

variable {tokens} {scope}

theorem readReturnType_eq (inside : pos ≤ tokens.length) :
    readReturnType tokens scope pos =
      .ok ((Body.readReturnType scope (tokens.drop pos)).1,
        place tokens (Body.readReturnType scope (tokens.drop pos)).2) := by
  rw [readReturnType]
  split
  · rename_i colon
    have start : pos + 1 ≤ tokens.length := lt_of_getElem? colon
    have text := slice_place start
      (List.takeWhile_append_dropWhile (p := (!Body.endsType ·))
        (l := tokens.drop (pos + 1))).symm
    rw [skipType_eq start, drop_of_getElem? colon, Body.readReturnType]
    change (slice _ _ _ >>= _) = _
    rw [text]
    rfl
  · rename_i other
    rw [Body.readReturnType, place_drop inside]
    exact fun ts left => other (getElem?_of_drop left)

theorem skipMethodBody_eq (method : String) :
    skipMethodBody tokens method pos =
      placedRest tokens (Body.skipMethodBody method (tokens.drop pos)) := by
  rw [skipMethodBody]
  split
  · rename_i next
    rw [drop_of_getElem? next, Body.skipMethodBody, placedRest,
      place_drop (lt_of_getElem? next)]
  · rename_i next
    rw [drop_of_getElem? next, Body.skipMethodBody, closeBracket_eq]
    cases Php.closeBracket '{' '}' (tokens.drop (pos + 1)) <;> rfl
  · rename_i noEnd noBrace
    rw [Body.skipMethodBody]
    · rfl
    · exact fun ts left => noEnd (getElem?_of_drop left)
    · exact fun ts left => noBrace (getElem?_of_drop left)

theorem readNamedMethod_eq (doc : Option String) (name : String) :
    readNamedMethod tokens scope doc name pos =
      placed tokens (Body.readNamedMethod scope doc name (tokens.drop pos)) := by
  rw [readNamedMethod]
  split
  · rename_i next
    rw [drop_of_getElem? next, Body.readNamedMethod, closeBracket_eq]
    cases closed : Php.closeBracket '(' ')' (tokens.drop (pos + 1)) with
    | error fault => rfl
    | ok split =>
        obtain ⟨inner, rest⟩ := split
        have later := isSuffix_of_closeBracket closed
        change (readParameters inner scope >>= _) = _
        rw [readParameters_eq]
        change (readReturnType tokens scope (place tokens rest) >>= _) = _
        rw [readReturnType_eq (place_le _ _), drop_place later]
        change (skipMethodBody tokens name (place tokens
          (Body.readReturnType scope rest).2) >>= _) = _
        rw [skipMethodBody_eq, drop_place
          ((Body.readReturnType_isSuffix scope rest).trans later)]
        dsimp only
        cases Body.skipMethodBody name (Body.readReturnType scope rest).2 <;>
          rfl
  · rename_i other
    rw [Body.readNamedMethod]
    · rfl
    · exact fun ts left => other (getElem?_of_drop left)

theorem readMethod_eq (doc : Option String) (pos : Nat) :
    readMethod tokens scope doc pos =
      placed tokens (Body.readMethod scope doc (tokens.drop pos)) := by
  rw [readMethod, Body.readMethod, ← drop_skipIf]
  split
  · rename_i name next
    rw [drop_of_getElem? next, readNamedMethod_eq]
  · rename_i other
    split
    · rename_i name rest left
      exact absurd (getElem?_of_drop left) (other name)
    · rfl

end Methods

/-! ## Bodies -/

/-- What the tokens of a body start with, and where it ends. -/
inductive BodyItem where
  | close
  | method (m : Method) (stop : Nat)
  | traitUse (names : List String) (stop : Nat)
  | other (depth : Nat) (doc : Option String) (stop : Nat)

section Bodies

variable (tokens) (scope : Scope)

/-- The item of a body with the place behind it.  The brace that opened the body
counts as open. -/
def BodyItem.ofItem : Body.Item → BodyItem
  | .close => .close
  | .method m rest => .method m (place tokens rest)
  | .traitUse names rest => .traitUse names (place tokens rest)
  | .other depth doc rest => .other (depth + 1) doc (place tokens rest)

/-- Reads the item that starts with the token `t`, which stands before the
position. -/
def readBodyItem (depth : Nat) (doc : Option String) (t : Token) (pos : Nat) :
    Except Stop BodyItem :=
  match t with
  | .punct '{' => .ok (.other (depth + 1) doc pos)
  | .punct '}' =>
    match minus depth 1 with
    | .error stop => .error stop
    | .ok 0 => .ok .close
    | .ok (depth + 1) => .ok (.other (depth + 1) none pos)
  | .punct ';' => .ok (.other depth none pos)
  | .docComment text =>
    .ok (.other depth (if depth = 1 then some text else doc) pos)
  | .attributeOpen =>
    (readAttributes tokens scope pos).map fun (_, stop) =>
      .other depth doc stop
  | t =>
    if depth = 1 ∧ t.isKeyword "function" then
      (readMethod tokens scope doc pos).map fun (m, stop) => .method m stop
    else if depth = 1 ∧ t.isKeyword "use" then
      let (names, stop) := readTraitUse tokens scope pos
      .ok (.traitUse names stop)
    else .ok (.other depth doc pos)

/-- Reads the body of the named type.  An item has to end behind its first
token. -/
def readBodyFrom (owner : String) (depth : Nat) (doc : Option String)
    (pos : Nat) : Except Stop (Body.Members × Nat) :=
  match next : tokens[pos]? with
  | none => .error (.fault (.openBody owner))
  | some t =>
    have := lt_of_getElem? next
    match readBodyItem tokens scope depth doc t (pos + 1) with
    | .error stop => .error stop
    | .ok .close => .ok ({}, pos + 1)
    | .ok (.method m stop) =>
      if pos < stop then
        (readBodyFrom owner depth none stop).map fun (members, stop) =>
          (members.addMethod m, stop)
      else .error (.defect .standstill)
    | .ok (.traitUse names stop) =>
      if pos < stop then
        (readBodyFrom owner depth doc stop).map fun (members, stop) =>
          (members.addTraits names, stop)
      else .error (.defect .standstill)
    | .ok (.other depth doc stop) =>
      if pos < stop then
        readBodyFrom owner depth doc stop
      else .error (.defect .standstill)
  termination_by tokens.length - pos

/-- Reads the body of the named type after its opening brace. -/
def readBody (owner : String) (pos : Nat) : Except Stop (Body.Members × Nat) :=
  readBodyFrom tokens scope owner 1 none pos

variable {tokens} {scope}

theorem BodyItem.ofItem_other
    (depth : Nat) (doc : Option String) (inside : pos ≤ tokens.length) :
    ofItem tokens (.other depth doc (tokens.drop pos)) =
      .other (depth + 1) doc pos :=
  congrArg (BodyItem.other (depth + 1) doc) (place_drop inside)

theorem readBodyItem_eq
    {depth : Nat} {doc : Option String} {t : Token}
    (inside : pos ≤ tokens.length) :
    readBodyItem tokens scope (depth + 1) doc t pos =
      match Body.readItem scope depth doc t (tokens.drop pos) with
      | .error fault => .error (.fault fault)
      | .ok item => .ok (.ofItem tokens item) := by
  fun_cases Body.readItem scope depth doc t (tokens.drop pos) with
  | case1 depth =>
      exact congrArg Except.ok (BodyItem.ofItem_other _ doc inside).symm
  | case2 => rfl
  | case3 depth =>
      exact congrArg Except.ok (BodyItem.ofItem_other depth none inside).symm
  | case4 depth =>
      exact congrArg Except.ok (BodyItem.ofItem_other depth none inside).symm
  | case5 depth text =>
      have opened : depth + 1 = 1 ↔ depth = 0 := Nat.add_eq_right
      rw [readBodyItem]
      simp only [opened, BodyItem.ofItem_other _ _ inside]
  | case6 depth =>
      rw [readBodyItem, readAttributes_eq inside, Attribute.read,
        Attribute.readGroup_snd]
      rfl
  | case7 depth t noOpen noClose noEnd noDoc noAttribute isFunction =>
      rw [readBodyItem, if_pos (by simpa using isFunction), readMethod_eq]
        <;> try assumption
      cases Body.readMethod scope doc (tokens.drop pos) <;> rfl
  | case8 depth t noOpen noClose noEnd noDoc noAttribute noFunction isUse names
      rest read =>
      rw [readBodyItem, if_neg (by simpa using noFunction),
        if_pos (by simpa using isUse), readTraitUse_eq inside, read]
        <;> try assumption
      rfl
  | case9 depth t noOpen noClose noEnd noDoc noAttribute noFunction noUse =>
      rw [readBodyItem, if_neg (by simpa using noFunction),
        if_neg (by simpa using noUse)] <;> try assumption
      exact congrArg Except.ok (BodyItem.ofItem_other depth doc inside).symm

/-- The item is the one that a reader of lists has given, and unless it closes the
body it ends behind the position. -/
def BodyItem.EndsBehind
    (tokens : List Token) (pos : Nat) (read : Except Fault Body.Item) :
    BodyItem → Prop
  | .close => read = .ok .close
  | .method m stop => pos < stop ∧ read = .ok (.method m (tokens.drop stop))
  | .traitUse names stop =>
      pos < stop ∧ read = .ok (.traitUse names (tokens.drop stop))
  | .other n doc stop =>
      pos < stop ∧ ∃ depth, depth + 1 = n ∧
        read = .ok (.other depth doc (tokens.drop stop))

/-- Every item that is read ends behind its first token. -/
theorem endsBehind_of_readBodyItem
    {depth : Nat} {doc : Option String} {t : Token} {item : BodyItem}
    (inside : pos < tokens.length)
    (done :
      readBodyItem tokens scope (depth + 1) doc t (pos + 1) = .ok item) :
    item.EndsBehind tokens pos
      (Body.readItem scope depth doc t (tokens.drop (pos + 1))) := by
  rw [readBodyItem_eq inside] at done
  cases read : Body.readItem scope depth doc t (tokens.drop (pos + 1)) with
  | error fault =>
      rw [read] at done
      cases done
  | ok listed =>
      rw [read] at done
      have later := Body.isSuffix_of_readItem read
      have ahead := lt_place inside later
      have left := (drop_place later).symm
      obtain rfl := Except.ok.inj done
      cases listed with
      | close => rfl
      | method m rest =>
          exact ⟨ahead, congrArg (Except.ok ∘ Body.Item.method m) left⟩
      | traitUse names rest =>
          exact ⟨ahead, congrArg (Except.ok ∘ Body.Item.traitUse names) left⟩
      | other depth' doc' rest =>
          exact ⟨ahead, depth', rfl,
            congrArg (Except.ok ∘ Body.Item.other depth' doc') left⟩

theorem readBodyFrom_eq
    {owner : String} {depth : Nat} {doc : Option String} :
    readBodyFrom tokens scope owner (depth + 1) doc pos =
      placed tokens
        (Body.readFrom scope owner depth doc (tokens.drop pos)) := by
  generalize opened : depth + 1 = n
  fun_induction readBodyFrom tokens scope owner n doc pos
    generalizing depth with
  | case1 n doc pos next =>
      rw [drop_of_getElem?_none next, Body.readFrom]
      rfl
  | case2 n doc pos t next inside stop failed =>
      rw [← opened, readBodyItem_eq inside] at failed
      rw [drop_of_getElem? next, Body.readFrom_cons]
      cases read : Body.readItem scope depth doc t (tokens.drop (pos + 1)) with
      | error fault =>
          rw [read] at failed
          cases failed
          rfl
      | ok listed =>
          rw [read] at failed
          cases failed
  | case3 n doc pos t next inside done =>
      rw [← opened] at done
      have read := endsBehind_of_readBodyItem inside done
      rw [drop_of_getElem? next, Body.readFrom_cons, read]
      exact congrArg (fun stop => Except.ok (Body.Members.mk [] [], stop))
        (place_drop inside).symm
  | case4 n doc pos t next inside m stop done ahead ih =>
      rw [← opened] at done
      obtain ⟨-, read⟩ := endsBehind_of_readBodyItem inside done
      rw [ih opened, drop_of_getElem? next, Body.readFrom_cons, read]
      dsimp only
      cases Body.readFrom scope owner depth none (tokens.drop stop) <;> rfl
  | case5 n doc pos t next inside m stop done still =>
      rw [← opened] at done
      exact absurd (endsBehind_of_readBodyItem inside done).1 still
  | case6 n doc pos t next inside names stop done ahead ih =>
      rw [← opened] at done
      obtain ⟨-, read⟩ := endsBehind_of_readBodyItem inside done
      rw [ih opened, drop_of_getElem? next, Body.readFrom_cons, read]
      dsimp only
      cases Body.readFrom scope owner depth doc (tokens.drop stop) <;> rfl
  | case7 n doc pos t next inside names stop done still =>
      rw [← opened] at done
      exact absurd (endsBehind_of_readBodyItem inside done).1 still
  | case8 n doc pos t next inside m doc' stop done ahead ih =>
      rw [← opened] at done
      obtain ⟨-, depth', nested, read⟩ :=
        endsBehind_of_readBodyItem inside done
      rw [ih nested, drop_of_getElem? next, Body.readFrom_cons, read]
  | case9 n doc pos t next inside m doc' stop done still =>
      rw [← opened] at done
      exact absurd (endsBehind_of_readBodyItem inside done).1 still

theorem readBody_eq (owner : String) (pos : Nat) :
    readBody tokens scope owner pos =
      placed tokens (Body.read scope owner (tokens.drop pos)) :=
  readBodyFrom_eq

end Bodies

end BusReference.Php.Position
