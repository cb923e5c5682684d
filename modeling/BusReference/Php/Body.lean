import BusReference.Php.Signature

/-!
# Bodies of types

The methods and the used traits in the body of a class, an interface, a trait or an enum. Of a
method only the signature is read; all other members are passed over.
-/

namespace BusReference.Php.Body

/-- Skips a token that satisfies the test. -/
def skipIf (p : Token → Bool) : List Token → List Token
  | [] => []
  | t :: ts => if p t then ts else t :: ts

theorem skipIf_length_le (p : Token → Bool) (ts : List Token) :
    (skipIf p ts).length ≤ ts.length := by
  unfold skipIf
  split
  · simp
  · split <;> simp

/-- Whether a token ends a declared return type. -/
def endsType (t : Token) : Bool :=
  t == .punct '{' || t == .punct ';'

/-- Reads the return type after a parameter list, if a colon announces one. -/
def readReturnType (scope : Scope) : List Token → Option String × List Token
  | .punct ':' :: ts =>
    ((Signature.readType scope (ts.takeWhile (!endsType ·))).map (·.1),
      ts.dropWhile (!endsType ·))
  | ts => (none, ts)

theorem readReturnType_length_le (scope : Scope) (ts : List Token) :
    (readReturnType scope ts).2.length ≤ ts.length := by
  unfold readReturnType
  split
  · exact Nat.le_succ_of_le (List.dropWhile_suffix _).length_le
  · exact Nat.le_refl _

/-- The tokens after the body of a method, which may be a mere semicolon. -/
def skipMethodBody (method : String) : List Token → Except Fault (List Token)
  | .punct ';' :: ts => .ok ts
  | .punct '{' :: ts => (closeBracket '{' '}' ts).map (·.2)
  | _ => .error (.noMethodBody method)

theorem length_lt_of_skipMethodBody {method : String} {ts rest : List Token}
    (h : skipMethodBody method ts = .ok rest) : rest.length < ts.length := by
  unfold skipMethodBody at h
  split at h
  · cases h; simp
  · rename_i ts
    cases h' : closeBracket '{' '}' ts with
    | error fault => rw [h'] at h; cases h
    | ok split =>
      obtain ⟨inner, after⟩ := split
      rw [h'] at h
      cases h
      have := length_lt_of_closeBracket h'
      simp only [List.length_cons]
      omega
  · cases h

/-- Reads a method after its name. -/
def readNamedMethod (scope : Scope) (doc : Option String) (name : String) :
    List Token → Except Fault (Method × List Token)
  | .punct '(' :: ts =>
    match closeBracket '(' ')' ts with
    | .error fault => .error fault
    | .ok (inner, rest) =>
      let returnType := readReturnType scope rest
      match skipMethodBody name returnType.2 with
      | .error fault => .error fault
      | .ok rest =>
        .ok ({ name, doc, parameters := Signature.readParameters scope inner,
               returnType := returnType.1 }, rest)
  | _ => .error (.noParameterList name)

theorem length_lt_of_readNamedMethod {scope : Scope} {doc : Option String} {name : String}
    {ts rest : List Token} {m : Method}
    (h : readNamedMethod scope doc name ts = .ok (m, rest)) : rest.length < ts.length := by
  unfold readNamedMethod at h
  split at h
  · rename_i ts
    split at h
    · cases h
    · rename_i inner after closed
      dsimp only at h
      split at h
      · cases h
      · rename_i final skipped
        cases h
        have := length_lt_of_closeBracket closed
        have := readReturnType_length_le scope after
        have := length_lt_of_skipMethodBody skipped
        simp only [List.length_cons]
        omega
  · cases h

/-- Reads a method after its keyword. -/
def readMethod (scope : Scope) (doc : Option String) (ts : List Token) :
    Except Fault (Method × List Token) :=
  match skipIf (· == .punct '&') ts with
  | .name name :: rest => readNamedMethod scope doc name rest
  | _ => .error .noMethodName

theorem length_lt_of_readMethod {scope : Scope} {doc : Option String} {ts rest : List Token}
    {m : Method} (h : readMethod scope doc ts = .ok (m, rest)) : rest.length < ts.length := by
  unfold readMethod at h
  split at h
  · rename_i name after skipped
    have := length_lt_of_readNamedMethod h
    have := skipIf_length_le (· == .punct '&') ts
    rw [skipped, List.length_cons] at this
    omega
  · cases h

/-- Reads the names of used traits, up to a semicolon or through the block that settles their
conflicts. -/
def readTraitUse (scope : Scope) : List Token → List String × List Token
  | [] => ([], [])
  | .name name :: ts =>
    match readTraitUse scope ts with
    | (names, rest) => (scope.resolve name :: names, rest)
  | .punct c :: ts =>
    if c = '{' then ([], Scope.dropThrough '}' ts)
    else if c = ';' then ([], ts)
    else readTraitUse scope ts
  | _ :: ts => readTraitUse scope ts

theorem readTraitUse_length_le (scope : Scope) (ts : List Token) :
    (readTraitUse scope ts).2.length ≤ ts.length := by
  fun_induction readTraitUse scope ts with
  | case3 => exact Nat.le_succ_of_le (Scope.dropThrough_length_le _ _)
  | _ => simp_all <;> omega

/-- The members of a body that matter. -/
structure Members where
  methods : List Method := []
  traits : List String := []
  deriving DecidableEq, Repr

/-- Puts a method before the members. -/
def Members.addMethod (m : Method) (members : Members) : Members :=
  { members with methods := m :: members.methods }

/-- Puts used traits before the members. -/
def Members.addTraits (names : List String) (members : Members) : Members :=
  { members with traits := names ++ members.traits }

/-- What the tokens of a body start with. -/
inductive Item where
  /-- The brace that closes the body. -/
  | close
  | method (m : Method) (rest : List Token)
  | traitUse (names : List String) (rest : List Token)
  /-- Something that does not matter. It leaves the given number of braces open and the given doc
  comment for a method that may follow. -/
  | other (depth : Nat) (doc : Option String) (rest : List Token)

/-- The tokens after an item. -/
def Item.rest : Item → List Token
  | close => []
  | method _ rest | traitUse _ rest | other _ _ rest => rest

/-- Reads the item that starts with the token `t`. `depth` is the number of braces that are open
inside the body, and `doc` the latest doc comment for a method that may follow. -/
def readItem (scope : Scope) (depth : Nat) (doc : Option String) (t : Token) (ts : List Token) :
    Except Fault Item :=
  match t with
  | .punct '{' => .ok (.other (depth + 1) doc ts)
  | .punct '}' =>
    match depth with
    | 0 => .ok .close
    | depth + 1 => .ok (.other depth none ts)
  | .punct ';' => .ok (.other depth none ts)
  | .docComment text => .ok (.other depth (if depth = 0 then some text else doc) ts)
  | .attributeOpen => .ok (.other depth doc (Attribute.skipGroup 0 ts))
  | t =>
    if depth = 0 ∧ t.isKeyword "function" then
      (readMethod scope doc ts).map fun (m, rest) => .method m rest
    else if depth = 0 ∧ t.isKeyword "use" then
      let (names, rest) := readTraitUse scope ts
      .ok (.traitUse names rest)
    else .ok (.other depth doc ts)

theorem rest_length_le_of_readItem {scope : Scope} {depth : Nat} {doc : Option String} {t : Token}
    {ts : List Token} {item : Item} (h : readItem scope depth doc t ts = .ok item) :
    item.rest.length ≤ ts.length := by
  unfold readItem at h
  split at h
  · cases h; exact Nat.le_refl _
  · split at h <;> cases h <;> simp [Item.rest]
  · cases h; exact Nat.le_refl _
  · cases h; exact Nat.le_refl _
  · cases h; exact Attribute.skipGroup_length_le 0 ts
  · split at h
    · cases h' : readMethod scope doc ts with
      | error fault => rw [h'] at h; cases h
      | ok read =>
        obtain ⟨method, after⟩ := read
        rw [h'] at h
        cases h
        exact Nat.le_of_lt (length_lt_of_readMethod h')
    · split at h
      · cases h; exact readTraitUse_length_le scope ts
      · cases h; exact Nat.le_refl _

/-- Reads the body of the named type, `depth` and `doc` being as for its items. -/
def readFrom (scope : Scope) (owner : String) (depth : Nat) (doc : Option String) :
    List Token → Except Fault (Members × List Token)
  | [] => .error (.openBody owner)
  | t :: ts =>
    match h : readItem scope depth doc t ts with
    | .error fault => .error fault
    | .ok .close => .ok ({}, ts)
    | .ok (.method m rest) =>
      have : rest.length ≤ ts.length := rest_length_le_of_readItem h
      (readFrom scope owner depth none rest).map fun (members, rest) => (members.addMethod m, rest)
    | .ok (.traitUse names rest) =>
      have : rest.length ≤ ts.length := rest_length_le_of_readItem h
      (readFrom scope owner depth doc rest).map fun (members, rest) =>
        (members.addTraits names, rest)
    | .ok (.other depth doc rest) =>
      have : rest.length ≤ ts.length := rest_length_le_of_readItem h
      readFrom scope owner depth doc rest
  termination_by ts => ts.length

theorem length_lt_of_readFrom {scope : Scope} {owner : String} {depth : Nat} {doc : Option String}
    {ts rest : List Token} {members : Members}
    (h : readFrom scope owner depth doc ts = .ok (members, rest)) : rest.length < ts.length := by
  fun_induction readFrom scope owner depth doc ts generalizing members with
  | case1 => cases h
  | case2 => cases h
  | case3 => cases h; simp
  | case4 depth doc t ts m after read shorter ih =>
    cases h' : readFrom scope owner depth none after with
    | error fault => rw [h'] at h; cases h
    | ok result =>
      rw [h'] at h
      cases h
      have := ih h'
      simp only [List.length_cons]
      omega
  | case5 depth doc t ts names after read shorter ih =>
    cases h' : readFrom scope owner depth doc after with
    | error fault => rw [h'] at h; cases h
    | ok result =>
      rw [h'] at h
      cases h
      have := ih h'
      simp only [List.length_cons]
      omega
  | case6 depth doc t ts depth' doc' after read shorter ih =>
    have := ih h
    simp only [List.length_cons]
    omega

/-- Reads the body of the named type after its opening brace. -/
def read (scope : Scope) (owner : String) (ts : List Token) :
    Except Fault (Members × List Token) :=
  readFrom scope owner 0 none ts

end BusReference.Php.Body
