import BusReference.Php.Body

/-!
# Source files

The types that a source file declares, in their order. Functions are skipped with their bodies, so
what they declare inside does not count; all other tokens outside of declarations are passed over.
-/

namespace BusReference.Php.SourceFile

/-- Which list of names the tokens before a body are in. -/
inductive Clause where
  | none
  | extending
  | implementing
  deriving DecidableEq, Repr

/-- The types that the header of a declaration refers to. -/
structure Heritage where
  parent : Option String := none
  interfaces : List String := []
  deriving DecidableEq, Repr

/-- Takes up a name of the header. An interface extends interfaces; anything else extends a class,
of which the last one counts. Names outside of both clauses, such as the type of an enum, do not
matter. -/
def Heritage.add (kind : TypeKind) (clause : Clause) (name : String) (h : Heritage) : Heritage :=
  match clause, kind with
  | .none, _ => h
  | .implementing, _ | .extending, .interfaceType => { h with interfaces := h.interfaces ++ [name] }
  | .extending, _ => { h with parent := some name }

/-- Reads the header of a type after its name, through the brace that opens its body. -/
def readHeader (scope : Scope) (kind : TypeKind) (owner : String) (clause : Clause)
    (heritage : Heritage) : List Token → Except Fault (Heritage × List Token)
  | [] => .error (.openDeclaration owner)
  | t :: ts =>
    match t with
    | .name name =>
      if t.isKeyword "extends" then readHeader scope kind owner .extending heritage ts
      else if t.isKeyword "implements" then readHeader scope kind owner .implementing heritage ts
      else readHeader scope kind owner clause (heritage.add kind clause (scope.resolve name)) ts
    | .punct c =>
      if c = '{' then .ok (heritage, ts) else readHeader scope kind owner clause heritage ts
    | _ => readHeader scope kind owner clause heritage ts

theorem length_lt_of_readHeader {scope : Scope} {kind : TypeKind} {owner : String}
    {clause : Clause} {heritage result : Heritage} {ts rest : List Token}
    (h : readHeader scope kind owner clause heritage ts = .ok (result, rest)) :
    rest.length < ts.length := by
  fun_induction readHeader scope kind owner clause heritage ts with
  | case1 => cases h
  | case5 => cases h; simp
  | _ =>
    simp_all
    omega

/-- Where a source text comes from: its file, if any, and the whole text. -/
structure Origin where
  path : Option Files.FilePath
  source : String

/-- What stands before a declaration: the latest doc comment and the names of the attributes. -/
structure Pending where
  doc : Option String := none
  attributes : List String := []
  deriving DecidableEq, Repr

/-- Reads a declaration after its keyword and its name. -/
def readDeclaration (origin : Origin) (scope : Scope) (pending : Pending) (kind : TypeKind)
    (short : String) (ts : List Token) : Except Fault (Declaration × List Token) :=
  let declared := Declaration.named (scope.qualify short) kind
  match readHeader scope kind declared.name .none {} ts with
  | .error fault => .error fault
  | .ok (heritage, rest) =>
    match Body.read scope declared.name rest with
    | .error fault => .error fault
    | .ok (members, rest) =>
      .ok ({ declared with
        doc := pending.doc
        attributes := pending.attributes
        parent := heritage.parent
        interfaces := heritage.interfaces
        traits := members.traits
        methods := members.methods
        path := origin.path
        source := some origin.source }, rest)

theorem length_lt_of_readDeclaration {origin : Origin} {scope : Scope} {pending : Pending}
    {kind : TypeKind} {short : String} {ts rest : List Token} {d : Declaration}
    (h : readDeclaration origin scope pending kind short ts = .ok (d, rest)) :
    rest.length < ts.length := by
  unfold readDeclaration at h
  dsimp only at h
  split at h
  · cases h
  · rename_i heritage body header
    split at h
    · cases h
    · rename_i members after read
      cases h
      have := length_lt_of_readHeader header
      have := Body.length_lt_of_readFrom read
      omega

/-- Skips the rest of a function after its parameters. A semicolon ends it if no body comes first,
and is left over; parentheses hold the variables that a closure uses. -/
def skipFunctionBody : List Token → Except Fault (List Token)
  | [] => .ok []
  | .punct '{' :: ts => (closeBracket '{' '}' ts).map (·.2)
  | .punct ';' :: ts => .ok (.punct ';' :: ts)
  | .punct '(' :: ts =>
    match h : closeBracket '(' ')' ts with
    | .error fault => .error fault
    | .ok (_, rest) =>
      have := length_lt_of_closeBracket h
      skipFunctionBody rest
  | _ :: ts => skipFunctionBody ts
  termination_by ts => ts.length

theorem length_le_of_skipFunctionBody {ts rest : List Token}
    (h : skipFunctionBody ts = .ok rest) : rest.length ≤ ts.length := by
  fun_induction skipFunctionBody ts with
  | case1 => cases h; simp
  | case2 ts =>
    cases h' : closeBracket '{' '}' ts with
    | error fault => rw [h'] at h; cases h
    | ok split =>
      obtain ⟨inner, after⟩ := split
      rw [h'] at h
      cases h
      have := length_lt_of_closeBracket h'
      simp only [List.length_cons]
      omega
  | case3 => cases h; simp
  | case4 => cases h
  | case5 ts inner rest' closed shorter ih =>
    have := ih h
    simp only [List.length_cons]
    omega
  | case6 t ts _ _ _ ih => exact Nat.le_succ_of_le (ih h)

/-- Skips a function after its keyword. Without a parameter list nothing more is skipped. -/
def skipFunction (ts : List Token) : Except Fault (List Token) :=
  let named := Body.skipIf (fun t => match t with | .name _ => true | _ => false)
    (Body.skipIf (· == .punct '&') ts)
  match named with
  | .punct '(' :: rest =>
    match closeBracket '(' ')' rest with
    | .error fault => .error fault
    | .ok (_, rest) => skipFunctionBody rest
  | _ => .ok named

theorem length_le_of_skipFunction {ts rest : List Token} (h : skipFunction ts = .ok rest) :
    rest.length ≤ ts.length := by
  have named := Nat.le_trans
    (Body.skipIf_length_le (fun t => match t with | .name _ => true | _ => false)
      (Body.skipIf (· == .punct '&') ts))
    (Body.skipIf_length_le (· == .punct '&') ts)
  unfold skipFunction at h
  dsimp only at h
  split at h
  · rename_i parameters opened
    rw [opened, List.length_cons] at named
    split at h
    · cases h
    · rename_i inner after closed
      have := length_lt_of_closeBracket closed
      have := length_le_of_skipFunctionBody h
      omega
  · cases h
    exact named

/-- Whether the keyword of a type after the given token opens a declaration: it does not after a
colon, as in the name of a class constant, nor after `new`. -/
def opensDeclaration (previous : Option Token) : Bool :=
  !previous.any fun t => t == .punct ':' || t.isKeyword "new"

/-- The last of the tokens before the given rest of them. -/
def lastBefore (ts rest : List Token) : Option Token :=
  (ts.take (ts.length - rest.length)).getLast?

/-- The name after the keyword of a namespace; the global namespace has none. -/
def readNamespace : List Token → String × List Token
  | .name name :: ts => (name, ts)
  | ts => ("", ts)

theorem readNamespace_length_le (ts : List Token) : (readNamespace ts).2.length ≤ ts.length := by
  unfold readNamespace
  split <;> simp

/-- What the tokens of a file start with. -/
inductive Item where
  | declaration (d : Declaration) (rest : List Token)
  /-- Something that declares no type. It leaves the given names in force and the given doc comment
  and attributes before a declaration that may follow. -/
  | other (scope : Scope) (pending : Pending) (rest : List Token)

/-- The tokens after an item. -/
def Item.rest : Item → List Token
  | declaration _ rest | other _ _ rest => rest

/-- Reads what starts with a name, by the name in small letters. -/
def readWord (origin : Origin) (scope : Scope) (pending : Pending) (previous : Option Token)
    (word : String) (ts : List Token) : Except Fault Item :=
  match word with
  | "abstract" | "final" | "readonly" => .ok (.other scope pending ts)
  | "namespace" =>
    let (name, rest) := readNamespace ts
    .ok (.other (Scope.enter name) {} rest)
  | "use" =>
    match ts with
    | .name name :: rest =>
      let (scope, rest) := Scope.readUse scope (.name name :: rest)
      .ok (.other scope {} rest)
    | ts => .ok (.other scope {} ts)
  | "function" => (skipFunction ts).map (.other scope {})
  | word =>
    match TypeKind.ofKeyword? word, ts with
    | some kind, .name short :: rest =>
      if opensDeclaration previous then
        (readDeclaration origin scope pending kind short rest).map fun (d, rest) =>
          .declaration d rest
      else .ok (.other scope {} (.name short :: rest))
    | _, ts => .ok (.other scope {} ts)

theorem rest_length_le_of_readWord {origin : Origin} {scope : Scope} {pending : Pending}
    {previous : Option Token} {word : String} {ts : List Token} {item : Item}
    (h : readWord origin scope pending previous word ts = .ok item) :
    item.rest.length ≤ ts.length := by
  unfold readWord at h
  split at h
  · cases h; exact Nat.le_refl _
  · cases h; exact Nat.le_refl _
  · cases h; exact Nat.le_refl _
  · cases h; exact readNamespace_length_le ts
  · split at h
    · cases h; exact Scope.readUse_length_le _ _
    · cases h; exact Nat.le_refl _
  · cases h' : skipFunction ts with
    | error fault => rw [h'] at h; cases h
    | ok rest =>
      rw [h'] at h
      cases h
      exact length_le_of_skipFunction h'
  · split at h
    · split at h
      · rename_i kind short rest _ _
        cases h' : readDeclaration origin scope pending kind short rest with
        | error fault => rw [h'] at h; cases h
        | ok read =>
          obtain ⟨declaration, after⟩ := read
          rw [h'] at h
          cases h
          exact Nat.le_succ_of_le (Nat.le_of_lt (length_lt_of_readDeclaration h'))
      · cases h; exact Nat.le_refl _
    · cases h; exact Nat.le_refl _

/-- Reads the item that starts with the token `t`, given what is in force and what stands before a
declaration there, and the token before `t`. -/
def readItem (origin : Origin) (scope : Scope) (pending : Pending) (previous : Option Token)
    (t : Token) (ts : List Token) : Except Fault Item :=
  match t with
  | .docComment text => .ok (.other scope { pending with doc := some text } ts)
  | .attributeOpen =>
    let (names, rest) := Attribute.read scope ts
    .ok (.other scope { pending with attributes := pending.attributes ++ names } rest)
  | .name word => readWord origin scope pending previous word.toLower ts
  | _ => .ok (.other scope {} ts)

theorem rest_length_le_of_readItem {origin : Origin} {scope : Scope} {pending : Pending}
    {previous : Option Token} {t : Token} {ts : List Token} {item : Item}
    (h : readItem origin scope pending previous t ts = .ok item) :
    item.rest.length ≤ ts.length := by
  unfold readItem at h
  split at h
  · cases h; exact Nat.le_refl _
  · cases h; exact Attribute.read_length_le scope ts
  · exact rest_length_le_of_readWord h
  · cases h; exact Nat.le_refl _

/-- Reads the declarations of a file from some place on, given what is in force and what stands
before a declaration there, and the token before the place. -/
def readFrom (origin : Origin) (scope : Scope) (pending : Pending) (previous : Option Token) :
    List Token → Except Fault (List Declaration)
  | [] => .ok []
  | t :: ts =>
    match h : readItem origin scope pending previous t ts with
    | .error fault => .error fault
    | .ok (.declaration d rest) =>
      have : rest.length ≤ ts.length := rest_length_le_of_readItem h
      (readFrom origin scope {} (lastBefore (t :: ts) rest) rest).map (d :: ·)
    | .ok (.other scope pending rest) =>
      have : rest.length ≤ ts.length := rest_length_le_of_readItem h
      readFrom origin scope pending (lastBefore (t :: ts) rest) rest
  termination_by ts => ts.length

/-- The types that a source text declares. -/
def read (source : String) (path : Option Files.FilePath) : Except Fault (List Declaration) :=
  match Token.read source with
  | .error fault => .error (.lexical fault)
  | .ok ts => readFrom { path, source } {} {} none ts

end BusReference.Php.SourceFile
