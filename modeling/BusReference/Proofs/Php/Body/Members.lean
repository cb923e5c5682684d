import Mathlib.Data.List.TakeWhile
import BusReference.Proofs.Php.Enclosing
import BusReference.Proofs.Php.Grammar.Members

/-!
# The members of a body

A body is a sequence of members: methods, declarations of used traits, members
that end in a semicolon, and members that end in a block, as properties with
hooks do.  Of each member only the tokens are told that the reader looks at.
The main statement is that the tokens of a body that is read are those of such
a sequence, and that every such sequence is read as the methods and the traits
of its members.
-/

namespace BusReference.Php.Body

open BracketPair (braces parentheses)
open Attribute (groupPairs)
open Grammar (IsIdle Keyword Nested WrittenMethod getLast?_cons_or)

/-! ## Pieces -/

/-- What may stand before the keyword of a member or in a member without one. -/
inductive Piece where
  | attributes (content : Nested groupPairs)
  | token (t : { t : Token // IsIdle t })

namespace Piece

def tokens : Piece → List Token
  | attributes content => .attributeOpen :: (content.1 ++ [.punct ']'])
  | token t => [t.1]

def doc? : Piece → Option String
  | attributes _ => none
  | token t => (Grammar.MemberPiece.token t).doc?

end Piece

/-- The last doc comment among the pieces, outside of attributes. -/
def lastDoc (pieces : List Piece) : Option String :=
  (pieces.filterMap (·.doc?)).getLast?

theorem lastDoc_cons
    (piece : Piece) (pieces : List Piece) (before : Option String) :
    (lastDoc (piece :: pieces)).or before =
      (lastDoc pieces).or (piece.doc?.or before) := by
  rw [lastDoc, lastDoc, List.filterMap_cons]
  cases piece.doc? with
  | none => rfl
  | some text => exact getLast?_cons_or text _ before

/-! ## Methods -/

/-- The tokens of a method after its keyword, as far as they tell the parts of
the method from each other. -/
structure MethodTokens where
  byReference : Bool
  name : String
  parameters : Nested [parentheses]
  returns : Option { ts : List Token // ∀ t ∈ ts, endsType t = false }
  body : Option (Nested [braces])

namespace MethodTokens

/-- The method without its parameters and its return type. -/
def written (m : MethodTokens) : WrittenMethod where
  byReference := m.byReference
  name := m.name
  returnType := none
  body := m.body

def returnTokens (m : MethodTokens) : List Token :=
  (m.returns.map (.punct ':' :: ·.1)).getD []

def tokens (m : MethodTokens) : List Token :=
  optionalToken m.byReference (.punct '&') ++
    (.name m.name :: .punct '(' ::
      (m.parameters.1 ++
        .punct ')' :: (m.returnTokens ++ m.written.bodyTokens)))

/-- What the tokens declare after the given doc comment. -/
def declared (m : MethodTokens) (scope : Scope) (doc : Option String) :
    Method where
  name := m.name
  doc
  parameters := Signature.readParameters scope m.parameters.1
  returnType := m.returns.bind fun ts =>
    (Signature.readType scope ts.1).map (·.1)

theorem readReturnType_returnTokens
    (m : MethodTokens) (scope : Scope) (rest : List Token) :
    readReturnType scope
        (m.returnTokens ++ (m.written.bodyTokens ++ rest)) =
      (m.returns.bind fun ts => (Signature.readType scope ts.1).map (·.1),
        m.written.bodyTokens ++ rest) := by
  obtain ⟨t, ts, starts, ends, notColon⟩ := m.written.exists_bodyTokens_eq_cons
  rw [returnTokens, starts, List.cons_append]
  cases m.returns with
  | none =>
      rw [Option.map_none, Option.getD_none, List.nil_append, readReturnType]
      · rfl
      · intro _ colon
        exact notColon (List.cons.inj colon).1
  | some returns =>
      obtain ⟨us, inside⟩ := returns
      have within : ∀ t ∈ us, (!endsType t) = true := by
        intro t member
        rw [inside t member]
        rfl
      have stops : ¬ (!endsType t) = true := by simp [ends]
      rw [Option.map_some, Option.getD_some, List.cons_append, readReturnType,
        List.takeWhile_append_of_pos within,
        List.dropWhile_append_of_pos within,
        List.takeWhile_cons_of_neg (p := (!endsType ·)) stops,
        List.dropWhile_cons_of_neg (p := (!endsType ·)) stops,
        List.append_nil]
      rfl

/-- The reader takes exactly the tokens of the method. -/
theorem readMethod_tokens
    (m : MethodTokens) (scope : Scope) (doc : Option String)
    (rest : List Token) :
    readMethod scope doc (m.tokens ++ rest) =
      .ok (m.declared scope doc, rest) := by
  have isPair : IsPair [parentheses] '(' ')' := by decide
  have named : ∀ ts : List Token,
      skipIf (· == .punct '&')
          (optionalToken m.byReference (.punct '&') ++ .name m.name :: ts) =
        .name m.name :: ts := by
    intro ts
    cases m.byReference <;> rfl
  rw [readMethod, tokens, List.append_assoc, List.cons_append, named]
  dsimp only
  rw [List.cons_append, readNamedMethod, List.append_assoc, List.cons_append,
    closeBracket_balanced isPair m.parameters.2]
  dsimp only
  rw [List.append_assoc, m.readReturnType_returnTokens]
  dsimp only
  rw [show m.name = m.written.name from rfl,
    m.written.skipMethodBody_bodyTokens]
  rfl

end MethodTokens

section Methods

variable {scope : Scope} {name : String} {ts rest : List Token}

theorem exists_eq_skipIf (ts : List Token) :
    ∃ skipped, ts = optionalToken skipped (.punct '&') ++
      skipIf (· == .punct '&') ts := by
  cases ts with
  | nil => exact ⟨false, rfl⟩
  | cons t ts =>
      rw [skipIf]
      split
      · rename_i mark
        rw [eq_of_beq mark]
        exact ⟨true, rfl⟩
      · exact ⟨false, rfl⟩

theorem exists_eq_readReturnType (scope : Scope) (ts : List Token) :
    ∃ returns : Option { us : List Token // ∀ t ∈ us, endsType t = false },
      ts = (returns.map (.punct ':' :: ·.1)).getD [] ++
        (readReturnType scope ts).2 := by
  unfold readReturnType
  split
  · rename_i ts
    refine ⟨some ⟨ts.takeWhile (!endsType ·), ?_⟩, ?_⟩
    · intro t member
      simpa using List.mem_takeWhile_imp member
    · exact congrArg _ List.takeWhile_append_dropWhile.symm
  · exact ⟨none, rfl⟩

theorem exists_eq_bodyTokens
    (skipped : skipMethodBody name ts = .ok rest) :
    ∃ body : Option (Nested [braces]), ∀ byReference returnType,
      ts = (WrittenMethod.mk byReference name returnType body).bodyTokens ++
        rest := by
  unfold skipMethodBody at skipped
  split at skipped
  · cases skipped
    exact ⟨none, fun _ _ => rfl⟩
  · obtain ⟨⟨inner, after⟩, closed, rfl⟩ := exists_of_map_eq_ok skipped
    have inside : Balanced [braces] inner := balanced_of_closeBracket closed
    refine ⟨some ⟨inner, inside⟩, fun _ _ => ?_⟩
    simp [eq_of_closeBracket closed, WrittenMethod.bodyTokens]
  · cases skipped

/-- Whatever is read as a method consists of the parts of one. -/
theorem exists_methodTokens
    {doc : Option String} {method : Method}
    (done : readMethod scope doc ts = .ok (method, rest)) :
    ∃ m : MethodTokens, ts = m.tokens ++ rest := by
  obtain ⟨byReference, start⟩ := exists_eq_skipIf ts
  rw [readMethod] at done
  split at done
  · rename_i name after named
    rw [named] at start
    unfold readNamedMethod at done
    split at done
    · rename_i opened
      split at done
      · cases done
      · rename_i inner closed enclosing
        dsimp only at done
        split at done
        · cases done
        · rename_i final skipped
          cases done
          obtain ⟨returns, typed⟩ := exists_eq_readReturnType scope closed
          obtain ⟨body, ends⟩ := exists_eq_bodyTokens skipped
          have inside : Balanced [parentheses] inner :=
            balanced_of_closeBracket enclosing
          refine ⟨⟨byReference, name, ⟨inner, inside⟩, returns, body⟩, ?_⟩
          have split := eq_of_closeBracket enclosing
          rw [typed, ends byReference none] at split
          rw [start, split]
          simp [MethodTokens.tokens, MethodTokens.returnTokens,
            MethodTokens.written]
    · cases done
  · cases done

end Methods

/-! ## Used traits -/

section TraitUses

variable {scope : Scope} {c : Char} {ts : List Token}

/-- The qualified names that the tokens stand for. -/
def resolvedNames (scope : Scope) (ts : List Token) : List String :=
  ts.filterMap fun t =>
    match t with
    | .name text => some (scope.resolve text)
    | _ => none

theorem readTraitUse_append
    (noBlock : .punct '\x7b' ∉ ts) (noEnd : .punct ';' ∉ ts)
    (rest : List Token) :
    readTraitUse scope (ts ++ rest) =
      (resolvedNames scope ts ++ (readTraitUse scope rest).1,
        (readTraitUse scope rest).2) := by
  induction ts with
  | nil => rfl
  | cons t ts ih =>
      rw [List.mem_cons, not_or] at noBlock noEnd
      have later := ih noBlock.2 noEnd.2
      rw [List.cons_append]
      cases t with
      | name text => rw [readTraitUse, later]; rfl
      | punct c =>
          have notBlock : c ≠ '\x7b' := by
            rintro rfl
            exact noBlock.1 rfl
          have notEnd : c ≠ ';' := by
            rintro rfl
            exact noEnd.1 rfl
          rw [readTraitUse, if_neg notBlock, if_neg notEnd, later]
          rfl
      | _ => exact later

theorem exists_eq_dropThrough (left : Scope.dropThrough c ts ≠ []) :
    ∃ before, .punct c ∉ before ∧
      ts = before ++ .punct c :: Scope.dropThrough c ts := by
  induction ts with
  | nil => exact absurd rfl left
  | cons t ts ih =>
      rw [Scope.dropThrough] at left ⊢
      split at left
      · rename_i found
        exact ⟨[], List.not_mem_nil, by rw [if_pos found, found]; rfl⟩
      · rename_i other
        obtain ⟨before, without, split⟩ := ih left
        refine ⟨t :: before, ?_, ?_⟩
        · rw [List.mem_cons, not_or]
          exact ⟨fun same => other same.symm, without⟩
        · rw [if_neg other]
          exact congrArg (t :: ·) split

end TraitUses

/-- The tokens of a declaration of used traits after its keyword. -/
structure TraitTokens where
  names : { ts : List Token // .punct '\x7b' ∉ ts ∧ .punct ';' ∉ ts }
  conflicts : Option { ts : List Token // .punct '\x7d' ∉ ts }

namespace TraitTokens

def tokens (u : TraitTokens) : List Token :=
  u.names.1 ++ Grammar.WrittenTraitUse.endTokens ⟨[], u.conflicts⟩

/-- The qualified names of the traits. -/
def traits (scope : Scope) (u : TraitTokens) : List String :=
  resolvedNames scope u.names.1

theorem readTraitUse_tokens
    (u : TraitTokens) (scope : Scope) (rest : List Token) :
    readTraitUse scope (u.tokens ++ rest) = (u.traits scope, rest) := by
  rw [tokens, List.append_assoc,
    readTraitUse_append u.names.2.1 u.names.2.2,
    Grammar.WrittenTraitUse.readTraitUse_endTokens, List.append_nil]
  rfl

/-- The same end after one more token. -/
def cons
    (t : Token) (notBlock : t ≠ .punct '\x7b') (notEnd : t ≠ .punct ';')
    (u : TraitTokens) : TraitTokens where
  names := ⟨t :: u.names.1,
    by simp [notBlock.symm, u.names.2.1], by simp [notEnd.symm, u.names.2.2]⟩
  conflicts := u.conflicts

end TraitTokens

/-- Whatever is read as used traits ends as their declaration does, unless the
tokens end before. -/
theorem exists_traitTokens
    {scope : Scope} {ts : List Token} (left : (readTraitUse scope ts).2 ≠ []) :
    ∃ u : TraitTokens, ts = u.tokens ++ (readTraitUse scope ts).2 := by
  fun_induction readTraitUse scope ts with
  | case1 => exact absurd rfl left
  | case2 name ts names rest read ih =>
      rw [read] at ih
      obtain ⟨u, split⟩ := ih left
      exact ⟨u.cons (.name name) (by simp) (by simp), congrArg (.name name :: ·) split⟩
  | case3 ts =>
      obtain ⟨block, without, split⟩ := exists_eq_dropThrough left
      refine ⟨⟨⟨[], by simp⟩, some ⟨block, without⟩⟩, ?_⟩
      simpa [TraitTokens.tokens, Grammar.WrittenTraitUse.endTokens] using split
  | case4 ts => exact ⟨⟨⟨[], by simp⟩, none⟩, rfl⟩
  | case5 c ts notBlock notEnd ih =>
      obtain ⟨u, split⟩ := ih left
      exact ⟨u.cons (.punct c) (by simpa using notBlock) (by simpa using notEnd),
        congrArg (.punct c :: ·) split⟩
  | case6 t ts notName notMark ih =>
      obtain ⟨u, split⟩ := ih left
      exact ⟨u.cons t (notMark _) (notMark _), congrArg (t :: ·) split⟩

/-! ## Blocks -/

/-- What may stand between braces in a body. -/
inductive Block : List Token → Prop
  | nil : Block []
  | attributes {content ts : List Token}
      (inside : Balanced groupPairs content) (later : Block ts) :
      Block (.attributeOpen :: (content ++ .punct ']' :: ts))
  | braces {inner ts : List Token} (inside : Block inner) (later : Block ts) :
      Block (.punct '\x7b' :: (inner ++ .punct '\x7d' :: ts))
  | token {t : Token} {ts : List Token}
      (noMark : t ∉ [.punct '\x7b', .punct '\x7d', .attributeOpen])
      (later : Block ts) :
      Block (t :: ts)

section Blocks

variable (scope : Scope) {owner : String} {ts : List Token}

/-- In braces, nothing but braces and attributes counts. -/
theorem exists_readItem_token
    {t : Token}
    (noMark : t ∉ [.punct '\x7b', .punct '\x7d', .attributeOpen])
    (depth : Nat) (doc : Option String) :
    ∃ later, ∀ rest, readItem scope (depth + 1) doc t rest =
      .ok (.other (depth + 1) later rest) := by
  cases t with
  | punct c =>
      have apart : c ≠ '\x7b' ∧ c ≠ '\x7d' := by simpa using noMark
      by_cases ends : c = ';'
      · subst ends
        exact ⟨none, fun _ => rfl⟩
      · exact ⟨doc, fun _ => by simp [readItem, apart, ends]⟩
  | attributeOpen => simp at noMark
  | _ => exact ⟨doc, fun _ => by simp [readItem]⟩

/-- A block leaves as many braces open as there were. -/
theorem exists_readFrom_block
    (owner : String) (block : Block ts) (depth : Nat) (doc : Option String) :
    ∃ later, ∀ rest, readFrom scope owner (depth + 1) doc (ts ++ rest) =
      readFrom scope owner (depth + 1) later rest := by
  induction block generalizing depth doc with
  | nil => exact ⟨doc, fun _ => rfl⟩
  | attributes inside later ih =>
      obtain ⟨after, comesOut⟩ := ih depth doc
      refine ⟨after, fun rest => ?_⟩
      rw [List.cons_append, List.append_assoc, List.cons_append, readFrom_cons,
        readItem, Attribute.skipGroup_group inside]
      exact comesOut rest
  | braces inside later ihInside ihLater =>
      obtain ⟨between, closes⟩ := ihInside (depth + 1) doc
      obtain ⟨after, comesOut⟩ := ihLater depth none
      refine ⟨after, fun rest => ?_⟩
      rw [List.cons_append, List.append_assoc, List.cons_append, readFrom_cons,
        readItem]
      dsimp only
      rw [closes, readFrom_cons, readItem]
      exact comesOut rest
  | token noMark later ih =>
      obtain ⟨between, read⟩ := exists_readItem_token scope noMark depth doc
      obtain ⟨after, comesOut⟩ := ih depth between
      refine ⟨after, fun rest => ?_⟩
      rw [List.cons_append, readFrom_cons, read]
      exact comesOut rest

/-- A group of attributes in a body that is read is closed, and reading goes on
after it. -/
theorem exists_group_of_readFrom
    {depth : Nat} {doc : Option String} {result : Members × List Token}
    (done :
      readFrom scope owner depth doc (.attributeOpen :: ts) = .ok result) :
    ∃ content rest, Balanced groupPairs content ∧
      ts = content ++ .punct ']' :: rest ∧
      readFrom scope owner depth doc rest = .ok result := by
  rw [readFrom_cons, readItem] at done
  dsimp only at done
  have left : Attribute.skipGroup 0 ts ≠ [] := by
    intro nothing
    rw [nothing, readFrom] at done
    cases done
  obtain ⟨content, balanced, split⟩ :=
    Attribute.exists_group_of_skipGroup left
  exact ⟨content, _, balanced, split, done⟩

/-- Up to the brace that closes the next open one, there is a block. -/
theorem exists_block
    {depth : Nat} {doc : Option String} {result : Members × List Token}
    (done : readFrom scope owner (depth + 1) doc ts = .ok result) :
    ∃ inner rest, Block inner ∧ ts = inner ++ .punct '\x7d' :: rest ∧
      readFrom scope owner depth none rest = .ok result := by
  induction size : ts.length using Nat.strong_induction_on
    generalizing ts depth doc with
  | _ size ih =>
  subst size
  cases ts with
  | nil => cases done.symm.trans (by rw [readFrom])
  | cons t ts =>
      by_cases mark : t ∈ [.punct '\x7b', .punct '\x7d', .attributeOpen]
      · simp only [List.mem_cons, List.not_mem_nil, or_false] at mark
        rcases mark with rfl | rfl | rfl
        · -- the brace opens another block, after which this one goes on
          rw [readFrom_cons, readItem] at done
          obtain ⟨first, between, inside, rfl, closed⟩ :=
            ih _ (Nat.lt_succ_self _) done rfl
          obtain ⟨second, rest, later, rfl, ends⟩ :=
            ih _ (by simp only [List.length_cons, List.length_append]; omega)
              closed rfl
          exact ⟨_, rest, .braces inside later, by simp, ends⟩
        · rw [readFrom_cons, readItem] at done
          exact ⟨[], ts, .nil, rfl, done⟩
        · obtain ⟨content, after, balanced, rfl, later⟩ :=
            exists_group_of_readFrom scope done
          obtain ⟨inner, rest, block, rfl, ends⟩ :=
            ih _ (by simp only [List.length_cons, List.length_append]; omega)
              later rfl
          exact ⟨_, rest, .attributes balanced block, by simp, ends⟩
      · obtain ⟨between, read⟩ :=
          exists_readItem_token scope mark depth doc
        rw [readFrom_cons, read] at done
        obtain ⟨inner, rest, block, rfl, ends⟩ :=
          ih _ (Nat.lt_succ_self _) done rfl
        exact ⟨t :: inner, rest, .token mark block, rfl, ends⟩

end Blocks

/-! ## Members -/

/-- The tokens of a member, as far as they tell members from each other. -/
inductive MemberTokens where
  | method
      (lead : List Piece) (keyword : Keyword "function") (method : MethodTokens)
  | traitUse
      (lead : List Piece) (keyword : Keyword "use") (traits : TraitTokens)
  | statement (pieces : List Piece)
  | block (pieces : List Piece) (inner : { ts : List Token // Block ts })

namespace MemberTokens

def tokens : MemberTokens → List Token
  | method lead keyword m =>
      lead.flatMap (·.tokens) ++ .name keyword.1 :: m.tokens
  | traitUse lead keyword u =>
      lead.flatMap (·.tokens) ++ .name keyword.1 :: u.tokens
  | statement pieces => pieces.flatMap (·.tokens) ++ [.punct ';']
  | block pieces inner =>
      pieces.flatMap (·.tokens) ++
        .punct '\x7b' :: (inner.1 ++ [.punct '\x7d'])

/-- The doc comment that is in force after the member. -/
def docAfter (doc : Option String) : MemberTokens → Option String
  | traitUse lead _ _ => (lastDoc lead).or doc
  | _ => none

/-- The method that the member declares where a doc comment is in force. -/
def declared (scope : Scope) (doc : Option String) :
    MemberTokens → List Method
  | method lead _ m => [m.declared scope ((lastDoc lead).or doc)]
  | _ => []

/-- The qualified names of the traits that the member uses. -/
def traits (scope : Scope) : MemberTokens → List String
  | traitUse _ _ u => u.traits scope
  | _ => []

end MemberTokens

/-- The methods that members declare where a doc comment is in force. -/
def declaredMethods (scope : Scope) :
    Option String → List MemberTokens → List Method
  | _, [] => []
  | doc, member :: members =>
      member.declared scope doc ++
        declaredMethods scope (member.docAfter doc) members

/-- The tokens of a body, without the brace that closes it. -/
structure BodyTokens where
  members : List MemberTokens
  trailing : List Piece

namespace BodyTokens

def tokens (body : BodyTokens) : List Token :=
  body.members.flatMap (·.tokens) ++ body.trailing.flatMap (·.tokens)

/-- The body after one more member. -/
def cons (member : MemberTokens) (body : BodyTokens) : BodyTokens where
  members := member :: body.members
  trailing := body.trailing

theorem tokens_cons (member : MemberTokens) (body : BodyTokens) :
    (cons member body).tokens = member.tokens ++ body.tokens := by
  rw [cons, tokens, tokens, List.flatMap_cons, List.append_assoc]

/-- What the body declares. -/
def declared (scope : Scope) (body : BodyTokens) : Members where
  methods := declaredMethods scope none body.members
  traits := body.members.flatMap (·.traits scope)

end BodyTokens

section Reading

variable {scope : Scope} {owner : String}

theorem readFrom_pieces
    (pieces : List Piece) (doc : Option String) (rest : List Token) :
    readFrom scope owner 0 doc (pieces.flatMap (·.tokens) ++ rest) =
      readFrom scope owner 0 ((lastDoc pieces).or doc) rest := by
  induction pieces generalizing doc with
  | nil => rfl
  | cons piece pieces ih =>
      rw [List.flatMap_cons, List.append_assoc, lastDoc_cons, ← ih]
      cases piece with
      | attributes content =>
          rw [Piece.tokens, List.cons_append, List.append_assoc,
            List.singleton_append, readFrom_cons, readItem,
            Attribute.skipGroup_group content.2]
          rfl
      | token t => exact Grammar.readFrom_idle scope owner t doc _

theorem readFrom_function
    (keyword : Keyword "function") (m : MethodTokens) (doc : Option String)
    (rest : List Token) :
    readFrom scope owner 0 doc (.name keyword.1 :: (m.tokens ++ rest)) =
      (readFrom scope owner 0 none rest).map
        fun (members, after) =>
          (members.addMethod (m.declared scope doc), after) := by
  have read : readItem scope 0 doc (.name keyword.1) (m.tokens ++ rest) =
      .ok (.method (m.declared scope doc) rest) := by
    rw [readItem, if_pos ⟨rfl, keyword.isKeyword⟩, m.readMethod_tokens]
    · rfl
    all_goals simp
  rw [readFrom_cons, read]

theorem readFrom_use
    (keyword : Keyword "use") (u : TraitTokens) (doc : Option String)
    (rest : List Token) :
    readFrom scope owner 0 doc (.name keyword.1 :: (u.tokens ++ rest)) =
      (readFrom scope owner 0 doc rest).map
        fun (members, after) =>
          (members.addTraits (u.traits scope), after) := by
  have notFunction :
      ¬ (0 = 0 ∧ Token.isKeyword "function" (.name keyword.1)) := by
    simp [Token.isKeyword, keyword.2]
  have read : readItem scope 0 doc (.name keyword.1) (u.tokens ++ rest) =
      .ok (.traitUse (u.traits scope) rest) := by
    rw [readItem, if_neg notFunction, if_pos ⟨rfl, keyword.isKeyword⟩,
      u.readTraitUse_tokens]
    all_goals simp
  rw [readFrom_cons, read]

/-- The reader stops where the next member starts. -/
theorem readFrom_member
    (member : MemberTokens) (doc : Option String) (rest : List Token) :
    readFrom scope owner 0 doc (member.tokens ++ rest) =
      (readFrom scope owner 0 (member.docAfter doc) rest).map
        fun (members, after) =>
          ({ methods := member.declared scope doc ++ members.methods
             traits := member.traits scope ++ members.traits }, after) := by
  cases member with
  | method lead keyword m =>
      rw [MemberTokens.tokens, List.append_assoc, List.cons_append,
        readFrom_pieces, readFrom_function]
      rfl
  | traitUse lead keyword u =>
      rw [MemberTokens.tokens, List.append_assoc, List.cons_append,
        readFrom_pieces, readFrom_use]
      rfl
  | statement pieces =>
      rw [MemberTokens.tokens, List.append_assoc, List.singleton_append,
        readFrom_pieces, readFrom_cons, readItem]
      exact (congrFun Except.map_id _).symm
  | block pieces inner =>
      obtain ⟨later, comesOut⟩ :=
        exists_readFrom_block scope owner inner.2 0
          ((lastDoc pieces).or doc)
      rw [MemberTokens.tokens, List.append_assoc, List.cons_append,
        List.append_assoc, List.singleton_append, readFrom_pieces,
        readFrom_cons, readItem]
      dsimp only
      rw [comesOut, readFrom_cons, readItem]
      exact (congrFun Except.map_id _).symm

theorem readFrom_members
    (members : List MemberTokens) (trailing : List Piece)
    (doc : Option String) (rest : List Token) :
    readFrom scope owner 0 doc
        (members.flatMap (·.tokens) ++
          (trailing.flatMap (·.tokens) ++ .punct '\x7d' :: rest)) =
      .ok ({ methods := declaredMethods scope doc members
             traits := members.flatMap (·.traits scope) }, rest) := by
  induction members generalizing doc with
  | nil =>
      rw [List.flatMap_nil, List.nil_append, readFrom_pieces, readFrom_cons,
        readItem]
      rfl
  | cons member members ih =>
      rw [List.flatMap_cons, List.append_assoc, readFrom_member, ih]
      rfl

/-- The tokens of a body are read as what it declares. -/
theorem read_bodyTokens (body : BodyTokens) (rest : List Token) :
    read scope owner (body.tokens ++ .punct '\x7d' :: rest) =
      .ok (body.declared scope, rest) := by
  rw [BodyTokens.tokens, List.append_assoc]
  exact readFrom_members body.members body.trailing none rest

end Reading

/-! ## Whatever is read -/

section Splitting

variable
    {scope : Scope} {owner : String} {doc : Option String}
    {ts : List Token} {result : Members × List Token}

/-- In a body that is read, pieces come first, and then a token that starts or
ends something. -/
theorem exists_pieces
    (done : readFrom scope owner 0 doc ts = .ok result) :
    ∃ (pieces : List Piece) (t : Token) (rest : List Token),
      ts = pieces.flatMap (·.tokens) ++ t :: rest ∧
        t ≠ .attributeOpen ∧ ¬ IsIdle t := by
  induction size : ts.length using Nat.strong_induction_on
    generalizing ts doc with
  | _ size ih =>
  subst size
  cases ts with
  | nil => cases done.symm.trans (by rw [readFrom])
  | cons t ts =>
      by_cases idle : IsIdle t
      · rw [Grammar.readFrom_idle scope owner ⟨t, idle⟩] at done
        obtain ⟨pieces, next, rest, rfl, starts⟩ :=
          ih _ (Nat.lt_succ_self _) done rfl
        exact ⟨.token ⟨t, idle⟩ :: pieces, next, rest, rfl, starts⟩
      · by_cases opens : t = .attributeOpen
        · subst opens
          obtain ⟨content, after, balanced, rfl, later⟩ :=
            exists_group_of_readFrom scope done
          obtain ⟨pieces, next, rest, rfl, starts⟩ :=
            ih _ (by simp only [List.length_cons, List.length_append]; omega)
              later rfl
          exact ⟨.attributes ⟨content, balanced⟩ :: pieces, next, rest,
            by simp [Piece.tokens], starts⟩
        · exact ⟨[], t, ts, rfl, opens, idle⟩

theorem eq_of_not_isIdle
    {t : Token} (notIdle : ¬ IsIdle t) (noGroup : t ≠ .attributeOpen) :
    t = .punct '\x7b' ∨ t = .punct '\x7d' ∨ t = .punct ';' ∨
      (∃ keyword : Keyword "function", t = .name keyword.1) ∨
        ∃ keyword : Keyword "use", t = .name keyword.1 := by
  cases t with
  | name text =>
      by_cases isFunction : text.toLower = "function"
      · exact .inr (.inr (.inr (.inl ⟨⟨text, isFunction⟩, rfl⟩)))
      · by_cases isUse : text.toLower = "use"
        · exact .inr (.inr (.inr (.inr ⟨⟨text, isUse⟩, rfl⟩)))
        · simp [IsIdle, Token.isKeyword, isFunction, isUse] at notIdle
  | punct c =>
      by_contra apart
      simp only [not_or] at apart
      exact notIdle ⟨by simp [apart], rfl, rfl⟩
  | attributeOpen => exact absurd rfl noGroup
  | _ => exact absurd ⟨by simp, rfl, rfl⟩ notIdle

theorem exists_method_of_readFrom
    (keyword : Keyword "function")
    (done : readFrom scope owner 0 doc (.name keyword.1 :: ts) = .ok result) :
    ∃ (m : MethodTokens) (rest : List Token), ts = m.tokens ++ rest := by
  have item : readItem scope 0 doc (.name keyword.1) ts =
      (readMethod scope doc ts).map fun read => .method read.1 read.2 := by
    rw [readItem, if_pos ⟨rfl, keyword.isKeyword⟩]
    all_goals simp
  rw [readFrom_cons, item] at done
  cases read : readMethod scope doc ts with
  | error fault =>
      rw [read] at done
      cases done
  | ok found =>
      obtain ⟨m, split⟩ := exists_methodTokens read
      exact ⟨m, found.2, split⟩

theorem exists_traits_of_readFrom
    (keyword : Keyword "use")
    (done : readFrom scope owner 0 doc (.name keyword.1 :: ts) = .ok result) :
    ∃ (u : TraitTokens) (rest : List Token), ts = u.tokens ++ rest := by
  have notFunction :
      ¬ (0 = 0 ∧ Token.isKeyword "function" (.name keyword.1)) := by
    simp [Token.isKeyword, keyword.2]
  have item : readItem scope 0 doc (.name keyword.1) ts =
      .ok (.traitUse (readTraitUse scope ts).1 (readTraitUse scope ts).2) := by
    rw [readItem, if_neg notFunction, if_pos ⟨rfl, keyword.isKeyword⟩]
    all_goals simp
  rw [readFrom_cons, item] at done
  dsimp only at done
  have left : (readTraitUse scope ts).2 ≠ [] := by
    intro nothing
    rw [nothing, readFrom] at done
    cases done
  obtain ⟨u, split⟩ := exists_traitTokens left
  exact ⟨u, _, split⟩

/-- Tokens that are read as a body are those of one. -/
theorem exists_bodyTokens
    (done : readFrom scope owner 0 doc ts = .ok result) :
    ∃ (body : BodyTokens) (rest : List Token),
      ts = body.tokens ++ .punct '\x7d' :: rest := by
  induction size : ts.length using Nat.strong_induction_on
    generalizing ts doc result with
  | _ size ih =>
  subst size
  obtain ⟨pieces, t, rest, rfl, noGroup, notIdle⟩ := exists_pieces done
  rw [readFrom_pieces] at done
  rcases eq_of_not_isIdle notIdle noGroup with
    rfl | rfl | rfl | ⟨keyword, rfl⟩ | ⟨keyword, rfl⟩
  · -- a block, after which the body goes on
    rw [readFrom_cons, readItem] at done
    obtain ⟨inner, after, block, rfl, left⟩ := exists_block scope done
    obtain ⟨body, final, rfl⟩ := ih _ (by simp; omega) left rfl
    refine ⟨.cons (.block pieces ⟨inner, block⟩) body, final, ?_⟩
    simp [BodyTokens.tokens_cons, MemberTokens.tokens]
  · exact ⟨⟨[], pieces⟩, rest, rfl⟩
  · rw [readFrom_cons, readItem] at done
    obtain ⟨body, final, rfl⟩ := ih _ (by simp; omega) done rfl
    refine ⟨.cons (.statement pieces) body, final, ?_⟩
    simp [BodyTokens.tokens_cons, MemberTokens.tokens]
  · obtain ⟨m, after, rfl⟩ := exists_method_of_readFrom keyword done
    rw [readFrom_function] at done
    obtain ⟨⟨others, left⟩, later, -⟩ := exists_of_map_eq_ok done
    obtain ⟨body, final, rfl⟩ := ih _ (by simp; omega) later rfl
    refine ⟨.cons (.method pieces keyword m) body, final, ?_⟩
    simp [BodyTokens.tokens_cons, MemberTokens.tokens]
  · obtain ⟨u, after, rfl⟩ := exists_traits_of_readFrom keyword done
    rw [readFrom_use] at done
    obtain ⟨⟨others, left⟩, later, -⟩ := exists_of_map_eq_ok done
    obtain ⟨body, final, rfl⟩ := ih _ (by simp; omega) later rfl
    refine ⟨.cons (.traitUse pieces keyword u) body, final, ?_⟩
    simp [BodyTokens.tokens_cons, MemberTokens.tokens]

/-- What is read as a body is the tokens of one up to the brace that closes it,
and its methods and traits are those that the tokens declare. -/
theorem read_eq_ok_iff {found : Members} {rest : List Token} :
    read scope owner ts = .ok (found, rest) ↔
      ∃ body : BodyTokens, ts = body.tokens ++ .punct '\x7d' :: rest ∧
        found = body.declared scope := by
  constructor
  · intro done
    obtain ⟨body, after, rfl⟩ := exists_bodyTokens done
    rw [read_bodyTokens] at done
    cases done
    exact ⟨body, rfl, rfl⟩
  · rintro ⟨body, rfl, rfl⟩
    exact read_bodyTokens body rest

end Splitting

end BusReference.Php.Body
