import BusReference.Proofs.Php.Enclosing
import BusReference.Proofs.Php.Grammar.Files

/-!
# Code outside of declarations

The reader of a file passes over code from token to token.  Functions are
skipped with their bodies, and the keyword of a type is passed over where no
name follows it, or where a colon or `new` comes before.  The main statement is
that pieces of code declare nothing.  The code in the body of a class may also
declare used traits, which are taken for imports.
-/

namespace BusReference.Php.Grammar

open Attribute (groupPairs)
open BracketPair (braces parentheses)
open SourceFile
  (Origin Pending opensDeclaration readFrom readFrom_of_other readFrom_punct
    readItem readWord skipFunction skipFunctionBody)

/-! ## Tokens -/

/-- The words at which the reader of a file does more than to go on. -/
def fileKeywords : List String :=
  ["namespace", "use", "function", "class", "interface", "trait", "enum"]

/-- The reader of a file goes on after the token, whatever follows. -/
def IsCode (t : Token) : Prop :=
  t ≠ .attributeOpen ∧ ∀ word ∈ fileKeywords, t.isKeyword word = false

instance (t : Token) : Decidable (IsCode t) :=
  inferInstanceAs (Decidable (_ ∧ ∀ word ∈ fileKeywords, _))

/-- The words after which a declaration still waits for its keyword. -/
def modifierWords : List String := ["abstract", "final", "readonly"]

/-- Whether a declaration may follow the token without belonging to it. -/
def settles : Token → Bool
  | .docComment _ => false
  | .name text => !("new" :: modifierWords).contains text.toLower
  | .punct c => c != ':'
  | _ => true

/-- Where a declaration may start, nothing waits for it yet. -/
def IsReady
    (settled : Bool) (pending : Pending) (previous : Option Token) : Prop :=
  settled = true → pending = {} ∧ opensDeclaration previous = true

theorem isReady_false (pending : Pending) (previous : Option Token) :
    IsReady false pending previous :=
  fun settled => absurd settled Bool.false_ne_true

section Tokens

variable
    (origin : Origin) (scope : Scope) (pending : Pending)
    (previous : Option Token)

theorem opensDeclaration_of_settles {t : Token} (settled : settles t = true) :
    opensDeclaration (some t) = true := by
  cases t with
  | name text =>
      have apart : text.toLower ≠ "new" := by
        rintro isNew
        simp [settles, isNew] at settled
      simp [opensDeclaration, Token.isKeyword, apart]
  | punct c =>
      have apart : c ≠ ':' := by simpa [settles] using settled
      simp [opensDeclaration, Token.isKeyword, apart]
  | _ => rfl

theorem readWord_of_not_mem
    {word : String} (plain : word ∉ fileKeywords) :
    ∃ waiting, (word ∉ modifierWords → waiting = {}) ∧
      ∀ rest, readWord origin scope pending previous word rest =
        .ok (.other scope waiting rest) := by
  have noKind : TypeKind.ofKeyword? word = none := by
    unfold TypeKind.ofKeyword?
    split <;> simp_all [fileKeywords]
  by_cases modifier : word ∈ modifierWords
  · refine ⟨pending, fun other => absurd modifier other, fun rest => ?_⟩
    simp only [modifierWords, List.mem_cons, List.not_mem_nil, or_false]
      at modifier
    rcases modifier with rfl | rfl | rfl <;> rfl
  · refine ⟨{}, fun _ => rfl, fun rest => ?_⟩
    unfold readWord
    split
    all_goals simp_all [fileKeywords, modifierWords]

theorem readFrom_isCode {t : Token} (code : IsCode t) (rest : List Token) :
    ∃ waiting, IsReady (settles t) waiting (some t) ∧
      readFrom origin scope pending previous (t :: rest) =
        readFrom origin scope waiting (some t) rest := by
  have item : ∃ waiting, (settles t = true → waiting = {}) ∧
      readItem origin scope pending previous t rest =
        .ok (.other scope waiting rest) := by
    cases t with
    | docComment text => exact ⟨_, nofun, rfl⟩
    | name text =>
        have plain : text.toLower ∉ fileKeywords := by
          intro listed
          have keyword := code.2 _ listed
          simp [Token.isKeyword] at keyword
        obtain ⟨waiting, nothing, read⟩ :=
          readWord_of_not_mem origin scope pending previous plain
        refine ⟨waiting, fun settled => nothing ?_, read rest⟩
        intro modifier
        simp [settles, modifier] at settled
    | attributeOpen => exact absurd rfl code.1
    | _ => exact ⟨{}, fun _ => rfl, rfl⟩
  obtain ⟨waiting, nothing, read⟩ := item
  exact ⟨waiting,
    fun settled => ⟨nothing settled, opensDeclaration_of_settles settled⟩,
    readFrom_of_other [] read⟩

theorem readFrom_tokens
    {ts : List Token} (code : ∀ t ∈ ts, IsCode t) (rest : List Token) :
    ∃ waiting before, readFrom origin scope pending previous (ts ++ rest) =
      readFrom origin scope waiting before rest := by
  induction ts generalizing pending previous with
  | nil => exact ⟨pending, previous, rfl⟩
  | cons t ts ih =>
      obtain ⟨here, later⟩ := List.forall_mem_cons.mp code
      obtain ⟨between, -, step⟩ :=
        readFrom_isCode origin scope pending previous here (ts ++ rest)
      obtain ⟨waiting, before, run⟩ := ih between (some t) later
      exact ⟨waiting, before, step.trans run⟩

end Tokens

/-! ## Functions -/

/-- What may stand between the parameters of a function and its body. -/
inductive HeaderPiece where
  | token
      (t : { t : Token // t ∉ [.punct '\x7b', .punct ';', .punct '('] })
  | group (content : Nested [parentheses])

def HeaderPiece.tokens : HeaderPiece → List Token
  | token t => [t.1]
  | group content => .punct '(' :: (content.1 ++ [.punct ')'])

/-- A function, a closure or a method, as the reader of a file skips it. -/
structure WrittenFunction where
  keyword : Keyword "function"
  byReference : Bool
  name : Option String
  parameters : Nested [parentheses]
  header : List HeaderPiece
  body : Option (Nested [braces])

namespace WrittenFunction

def nameTokens (f : WrittenFunction) : List Token :=
  (f.name.map Token.name).toList

/-- The block of the function; one without it ends in a semicolon. -/
def blockTokens (f : WrittenFunction) : List Token :=
  match f.body with
  | some inner => .punct '\x7b' :: (inner.1 ++ [.punct '\x7d'])
  | none => []

/-- What is left over of the function: a semicolon is. -/
def leftTokens (f : WrittenFunction) : List Token :=
  optionalToken f.body.isNone (.punct ';')

/-- The tokens after the keyword that the reader skips. -/
def skippedTokens (f : WrittenFunction) : List Token :=
  optionalToken f.byReference (.punct '&') ++
    (f.nameTokens ++ .punct '(' ::
      (f.parameters.1 ++ .punct ')' ::
        (f.header.flatMap (·.tokens) ++ f.blockTokens)))

def tokens (f : WrittenFunction) : List Token :=
  .name f.keyword.1 :: (f.skippedTokens ++ f.leftTokens)

variable (f : WrittenFunction)

theorem skipFunctionBody_header (header : List HeaderPiece) (rest : List Token) :
    skipFunctionBody (header.flatMap (·.tokens) ++ rest) =
      skipFunctionBody rest := by
  have isPair : IsPair [parentheses] '(' ')' := by decide
  induction header with
  | nil => rfl
  | cons piece header ih =>
      rw [List.flatMap_cons, List.append_assoc, ← ih]
      cases piece with
      | token t =>
          obtain ⟨t, noMark⟩ := t
          simp only [List.mem_cons, List.not_mem_nil, or_false, not_or]
            at noMark
          rw [HeaderPiece.tokens, List.singleton_append, skipFunctionBody]
          all_goals simp [noMark]
      | group content =>
          rw [HeaderPiece.tokens, List.cons_append, List.append_assoc,
            List.singleton_append,
            SourceFile.skipFunctionBody_of_closed
              (closeBracket_balanced isPair content.2 _)]

theorem skipFunctionBody_blockTokens (rest : List Token) :
    skipFunctionBody (f.blockTokens ++ (f.leftTokens ++ rest)) =
      .ok (f.leftTokens ++ rest) := by
  have isPair : IsPair [braces] '\x7b' '\x7d' := by decide
  rw [blockTokens, leftTokens]
  cases f.body with
  | none =>
      show skipFunctionBody (.punct ';' :: rest) = _
      rw [skipFunctionBody]
      rfl
  | some inner =>
      rw [List.cons_append, List.append_assoc, List.singleton_append,
        skipFunctionBody, closeBracket_balanced isPair inner.2]
      rfl

theorem skipFunction_skippedTokens (rest : List Token) :
    skipFunction (f.skippedTokens ++ (f.leftTokens ++ rest)) =
      .ok (f.leftTokens ++ rest) := by
  have isPair : IsPair [parentheses] '(' ')' := by decide
  have opened : ∀ {ts inner rest : List Token},
      closeBracket '(' ')' ts = .ok (inner, rest) →
        skipFunction (optionalToken f.byReference (.punct '&') ++
            (f.nameTokens ++ .punct '(' :: ts)) =
          skipFunctionBody rest := by
    intro ts inner rest closed
    rw [nameTokens]
    cases f.byReference <;> cases f.name
    all_goals
      simp [skipFunction, Body.skipIf, optionalToken, closed]
  have closed := closeBracket_balanced isPair f.parameters.2
    (f.header.flatMap (·.tokens) ++ (f.blockTokens ++ (f.leftTokens ++ rest)))
  rw [skippedTokens, List.append_assoc, List.append_assoc, List.cons_append,
    List.append_assoc, List.cons_append, List.append_assoc, opened closed,
    skipFunctionBody_header, skipFunctionBody_blockTokens]

/-- The reader of a file goes on after the function. -/
theorem readFrom_tokens
    (origin : Origin) (scope : Scope) (pending : Pending)
    (previous : Option Token) (rest : List Token) :
    ∃ before, opensDeclaration before = true ∧
      readFrom origin scope pending previous (f.tokens ++ rest) =
        readFrom origin scope {} before rest := by
  have item : readItem origin scope pending previous (.name f.keyword.1)
      (f.skippedTokens ++ (f.leftTokens ++ rest)) =
        .ok (.other scope {} (f.leftTokens ++ rest)) := by
    rw [readItem, f.keyword.2, readWord, f.skipFunction_skippedTokens]
    rfl
  have step := readFrom_of_other f.skippedTokens item
  rw [tokens, List.cons_append, List.append_assoc, ← List.cons_append, step]
  cases body : f.body with
  | none =>
      rw [leftTokens, body]
      exact ⟨some (.punct ';'), rfl, readFrom_punct ';' rest⟩
  | some inner =>
      have ends : (Token.name f.keyword.1 :: f.skippedTokens).getLast? =
          some (.punct '\x7d') := by
        simp [skippedTokens, blockTokens, body, List.getLast?_cons,
          List.getLast?_append]
      rw [leftTokens, body, ends]
      exact ⟨some (.punct '\x7d'), rfl, rfl⟩

end WrittenFunction

/-! ## Pieces of code -/

/-- Keywords that are plain names where no name follows them. -/
def bareKeywords : List String :=
  ["use", "class", "interface", "trait", "enum"]

/-- What code consists of. -/
inductive CodePiece where
  | token (t : { t : Token // IsCode t })
  | attributes (content : Nested groupPairs)
  | function (f : WrittenFunction)
  /-- A keyword without a name after it. -/
  | bare
      (keyword : { text : String // text.toLower ∈ bareKeywords })
      (next : { t : Token // IsCode t ∧ ∀ text, t ≠ .name text })
  /-- The keyword of a type after a colon, as where the name of a class is
  fetched, or after `new`. -/
  | mention
      (mark : { t : Token // IsCode t ∧ opensDeclaration (some t) = false })
      (kind : TypeKind) (keyword : Keyword kind.keyword)

namespace CodePiece

def tokens : CodePiece → List Token
  | token t => [t.1]
  | attributes content => .attributeOpen :: (content.1 ++ [.punct ']'])
  | function f => f.tokens
  | bare keyword next => [.name keyword.1, next.1]
  | mention mark _ keyword => [mark.1, .name keyword.1]

/-- Whether a declaration may follow the piece. -/
def settles : CodePiece → Bool
  | token t => Grammar.settles t.1
  | attributes _ | mention .. => false
  | function _ => true
  | bare _ next => Grammar.settles next.1

section Reading

variable
    (origin : Origin) (scope : Scope) (pending : Pending)
    (previous : Option Token) (rest : List Token)

theorem readFrom_bare
    (keyword : { text : String // text.toLower ∈ bareKeywords })
    {next : Token} (noName : ∀ text, next ≠ .name text) :
    readFrom origin scope pending previous (.name keyword.1 :: next :: rest) =
      readFrom origin scope {} (some (.name keyword.1)) (next :: rest) := by
  refine readFrom_of_other [] ?_
  obtain ⟨text, listed⟩ := keyword
  simp only [bareKeywords, List.mem_cons, List.not_mem_nil, or_false] at listed
  rcases listed with word | word | word | word | word
  all_goals
    rw [readItem, word]
    cases next with
    | name text => exact absurd rfl (noName text)
    | _ => rfl

theorem readFrom_mention
    {previous : Option Token} (closed : opensDeclaration previous = false)
    {kind : TypeKind} (keyword : Keyword kind.keyword) :
    readFrom origin scope pending previous (.name keyword.1 :: rest) =
      readFrom origin scope {} (some (.name keyword.1)) rest := by
  refine readFrom_of_other [] ?_
  rw [readItem, keyword.2, List.nil_append]
  cases kind
  all_goals
    cases rest with
    | nil => rfl
    | cons t rest =>
        cases t
        all_goals
          simp [readWord, TypeKind.keyword, TypeKind.ofKeyword?, closed]

/-- The reader of a file goes on after the piece. -/
theorem readFrom_tokens (piece : CodePiece) :
    ∃ waiting before, IsReady piece.settles waiting before ∧
      readFrom origin scope pending previous (piece.tokens ++ rest) =
        readFrom origin scope waiting before rest := by
  cases piece with
  | token t =>
      obtain ⟨waiting, ready, step⟩ :=
        readFrom_isCode origin scope pending previous t.2 rest
      exact ⟨waiting, some t.1, ready, step⟩
  | attributes content =>
      have skipped : Attribute.read scope
          (content.1 ++ [.punct ']'] ++ rest) =
            ((Attribute.read scope (content.1 ++ [.punct ']'] ++ rest)).1,
              rest) := by
        refine Prod.ext rfl ?_
        rw [Attribute.read, Attribute.readGroup_snd, List.append_assoc]
        exact Attribute.skipGroup_group content.2 rest
      have item : ∃ waiting, readItem origin scope pending previous
          .attributeOpen (content.1 ++ [.punct ']'] ++ rest) =
            .ok (.other scope waiting rest) := by
        rw [readItem, skipped]
        exact ⟨_, rfl⟩
      obtain ⟨waiting, read⟩ := item
      exact ⟨waiting, _, isReady_false _ _, readFrom_of_other _ read⟩
  | function f =>
      obtain ⟨before, opens, step⟩ :=
        f.readFrom_tokens origin scope pending previous rest
      exact ⟨{}, before, fun _ => ⟨rfl, opens⟩, step⟩
  | bare keyword next =>
      obtain ⟨waiting, ready, step⟩ := readFrom_isCode origin scope {}
        (some (.name keyword.1)) next.2.1 rest
      exact ⟨waiting, some next.1, ready,
        (readFrom_bare origin scope pending previous rest keyword
          next.2.2).trans step⟩
  | mention mark kind keyword =>
      obtain ⟨waiting, -, step⟩ := readFrom_isCode origin scope pending
        previous mark.2.1 (.name keyword.1 :: rest)
      exact ⟨{}, _, isReady_false _ _, step.trans
        (readFrom_mention origin scope waiting rest mark.2.2 keyword)⟩

end Reading

end CodePiece

/-! ## Used traits -/

/--
Names of used traits as the reader of a file sees them.  A block that settles
their conflicts follows as code of its own.
-/
structure UsedTraits where
  keyword : Keyword "use"
  first : Reference
  others : List Reference
  mark : { c : Char // c ∈ [';', '\x7b'] }
  complete :
    ∀ name ∈ first :: others, (plainName name.text).toList.getLast? ≠ some '\\'

namespace UsedTraits

/-- The entry of a name that is taken for an import. -/
def entryOf (name : Reference) : String × String :=
  (shortName (plainName name.text), plainName name.text)

def tokens (u : UsedTraits) : List Token :=
  .name u.keyword.1 :: (nameList ',' (u.first :: u.others) ++ [.punct u.mark.1])

/-- The entries of the names, which are taken for imports. -/
def entries (u : UsedTraits) : List (String × String) :=
  (u.first :: u.others).map entryOf

theorem readImport_name
    (scope : Scope) {name : Reference}
    (complete : (plainName name.text).toList.getLast? ≠ some '\\')
    (c : Char) (rest : List Token) :
    Scope.readImport scope (plainName name.text) (.punct c :: rest) =
      (scope.addImport (entryOf name).1 (entryOf name).2,
        .punct c :: rest) := by
  unfold Scope.readImport
  split
  · rw [if_neg complete]
    rfl
  · rfl

theorem readImports_nameList
    {scope : Scope} {first : Reference} {others : List Reference}
    (complete : ∀ name ∈ first :: others,
      (plainName name.text).toList.getLast? ≠ some '\\')
    {mark : Char} (noComma : mark ≠ ',') (rest : List Token) :
    Scope.readImports scope
        (nameList ',' (first :: others) ++ .punct mark :: rest) =
      (scope.addImports ((first :: others).map entryOf), rest) := by
  induction others generalizing first scope with
  | nil =>
      have last := readImport_name scope (complete first List.mem_cons_self)
        mark rest
      rw [nameList, List.map_singleton, List.intercalate_singleton,
        List.singleton_append, Scope.readImports_cons last,
        if_neg (by simpa using noComma)]
      rfl
  | cons second others ih =>
      have here := readImport_name scope (complete first List.mem_cons_self)
        ',' (nameList ',' (second :: others) ++ .punct mark :: rest)
      have later : ∀ name ∈ second :: others,
          (plainName name.text).toList.getLast? ≠ some '\\' :=
        fun name listed => complete name (List.mem_cons_of_mem _ listed)
      rw [nameList_cons_cons, List.cons_append, List.cons_append,
        Scope.readImports_cons here, if_pos rfl, ih later,
        List.map_cons (l := second :: others), Scope.addImports_cons]

variable (u : UsedTraits)

/-- The reader of a file goes on after the mark. -/
theorem readFrom_tokens
    (origin : Origin) (scope : Scope) (pending : Pending)
    (previous : Option Token) (rest : List Token) :
    readFrom origin scope pending previous (u.tokens ++ rest) =
      readFrom origin (scope.addImports u.entries) {}
        (some (.punct u.mark.1)) rest := by
  have noComma : u.mark.1 ≠ ',' := by
    intro comma
    have listed := u.mark.2
    rw [comma] at listed
    exact absurd listed (by decide)
  obtain ⟨names, starts⟩ : ∃ names,
      nameList ',' (u.first :: u.others) = .name u.first.text :: names := by
    cases u.others with
    | nil => exact ⟨[], rfl⟩
    | cons second others => exact ⟨_, nameList_cons_cons _ _ _ _⟩
  have used : Scope.readUse scope
      (nameList ',' (u.first :: u.others) ++ .punct u.mark.1 :: rest) =
        (scope.addImports u.entries, rest) := by
    have noMarker : (Token.isKeyword "function" (.name u.first.text) ||
        Token.isKeyword "const" (.name u.first.text)) = false := by
      rw [u.first.not_isKeyword (by decide), u.first.not_isKeyword (by decide)]
      rfl
    rw [Scope.readUse, if_neg, readImports_nameList u.complete noComma]
    · rfl
    · rw [starts]
      simp [noMarker]
  have item : readItem origin scope pending previous (.name u.keyword.1)
      (nameList ',' (u.first :: u.others) ++ [.punct u.mark.1] ++ rest) =
        .ok (.other (scope.addImports u.entries) {} rest) := by
    rw [List.append_assoc, List.singleton_append, readItem, u.keyword.2]
    rw [starts, List.cons_append] at used ⊢
    rw [readWord]
    dsimp only
    rw [used]
  have ends : (Token.name u.keyword.1 ::
      (nameList ',' (u.first :: u.others) ++ [.punct u.mark.1])).getLast? =
        some (.punct u.mark.1) := by
    simp [List.getLast?_cons]
  rw [tokens, readFrom_of_other _ item, ends]

end UsedTraits

end BusReference.Php.Grammar
