import BusReference.Proofs.Php.Grammar.Imports
import BusReference.Proofs.Php.Grammar.Methods

/-!
# Members as they are written

The body of a written type has methods, declarations of used traits, and
members that only a semicolon ends, in any order.  Reading each of them stops
where the next one starts.  From this, by induction on the members, follows
that exactly the methods and the traits are found that the body declares.
-/

namespace BusReference.Php

/-- Of a method, only its name and what it returns. -/
def Method.outline (m : Method) : Method :=
  { name := m.name, returnType := m.returnType }

namespace Grammar

open BracketPair (parentheses)

/-! ## Pieces of members -/

/-- The reader of a body passes over the token. -/
def IsIdle (t : Token) : Prop :=
  t ∉ [.punct '\x7b', .punct '\x7d', .punct ';', .attributeOpen] ∧
    t.isKeyword "function" = false ∧ t.isKeyword "use" = false

instance (t : Token) : Decidable (IsIdle t) :=
  inferInstanceAs (Decidable (_ ∧ _ ∧ _))

/--
What may stand before the keyword of a member, such as modifiers and comments,
and what a member without such a keyword consists of.
-/
inductive MemberPiece where
  | attributes (content : Nested BracketPair.all)
  | token (t : { t : Token // IsIdle t })

namespace MemberPiece

def tokens : MemberPiece → List Token
  | attributes content => attributeGroup content
  | token t => [t.1]

def doc? : MemberPiece → Option String
  | token ⟨.docComment text, _⟩ => some text
  | _ => none

end MemberPiece

/-- The doc comment that is in force after the given pieces. -/
def docAfter (doc : Option String) (pieces : List MemberPiece) :
    Option String :=
  (pieces.filterMap (·.doc?)).getLast?.or doc

theorem getLast?_cons_or
    {α : Type} (a : α) (as : List α) (before : Option α) :
    (a :: as).getLast?.or before = as.getLast?.or (some a) := by
  rw [List.getLast?_cons]
  cases as.getLast? <;> rfl

theorem docAfter_cons
    (doc : Option String) (piece : MemberPiece) (pieces : List MemberPiece) :
    docAfter doc (piece :: pieces) =
      docAfter (piece.doc?.or doc) pieces := by
  rw [docAfter, docAfter, List.filterMap_cons]
  cases piece.doc? with
  | none => rfl
  | some text => exact getLast?_cons_or text _ doc

section Pieces

variable (scope : Scope) (owner : String)

theorem readFrom_idle
    (t : { t : Token // IsIdle t }) (doc : Option String)
    (rest : List Token) :
    Body.readFrom scope owner 0 doc (t.1 :: rest) =
      Body.readFrom scope owner 0 ((MemberPiece.token t).doc?.or doc)
        rest := by
  obtain ⟨t, noMark, notFunction, notUse⟩ := t
  have read : Body.readItem scope 0 doc t rest =
      .ok (.other 0
        ((MemberPiece.token ⟨t, noMark, notFunction, notUse⟩).doc?.or doc)
        rest) := by
    cases t with
    | docComment text => rfl
    | name text =>
        simp [Body.readItem, notFunction, notUse, MemberPiece.doc?]
    | punct c =>
        have apart : c ≠ '\x7b' ∧ c ≠ '\x7d' ∧ c ≠ ';' := by
          simpa using noMark
        simp [Body.readItem, apart, Token.isKeyword, MemberPiece.doc?]
    | attributeOpen => simp at noMark
    | _ => simp [Body.readItem, Token.isKeyword, MemberPiece.doc?]
  rw [Body.readFrom_cons, read]

theorem readFrom_pieces
    (pieces : List MemberPiece) (doc : Option String) (rest : List Token) :
    Body.readFrom scope owner 0 doc (pieces.flatMap (·.tokens) ++ rest) =
      Body.readFrom scope owner 0 (docAfter doc pieces) rest := by
  induction pieces generalizing doc with
  | nil => rfl
  | cons piece pieces ih =>
      rw [List.flatMap_cons, List.append_assoc, docAfter_cons, ← ih]
      cases piece with
      | attributes content =>
          rw [MemberPiece.tokens, attributeGroup, List.cons_append,
            List.append_assoc, Body.readFrom_cons, Body.readItem,
            Attribute.skipGroup_append content.2, List.singleton_append]
          simp [Attribute.skipGroup, MemberPiece.doc?]
      | token t => exact readFrom_idle scope owner t doc _

end Pieces

/-! ## Used traits -/

/-- The names of used traits, and perhaps how their conflicts are settled. -/
structure WrittenTraitUse where
  names : List Reference
  conflicts : Option { ts : List Token // Token.punct '\x7d' ∉ ts }

namespace WrittenTraitUse

def endTokens (u : WrittenTraitUse) : List Token :=
  match u.conflicts with
  | some block => .punct '\x7b' :: (block.1 ++ [.punct '\x7d'])
  | none => [.punct ';']

/-- The tokens after the keyword. -/
def tokens (u : WrittenTraitUse) : List Token :=
  nameList ',' u.names ++ u.endTokens

variable (u : WrittenTraitUse) {scope : Scope}

theorem readTraitUse_endTokens (rest : List Token) :
    Body.readTraitUse scope (u.endTokens ++ rest) = ([], rest) := by
  rw [endTokens]
  cases u.conflicts with
  | none => rw [List.singleton_append, Body.readTraitUse]; rfl
  | some block =>
      rw [List.cons_append, List.append_assoc, List.singleton_append,
        Body.readTraitUse, if_pos rfl, dropThrough_append block.2]

theorem readTraitUse_nameList
    (names : List Reference) (rest : List Token) :
    Body.readTraitUse scope (nameList ',' names ++ rest) =
      (names.map (scope.resolve ·.text) ++
          (Body.readTraitUse scope rest).1,
        (Body.readTraitUse scope rest).2) := by
  induction names with
  | nil => rfl
  | cons name names ih =>
      cases names with
      | nil => rfl
      | cons second names =>
          rw [nameList_cons_cons, List.cons_append, List.cons_append,
            Body.readTraitUse, Body.readTraitUse, if_neg (by decide),
            if_neg (by decide), ih]
          rfl

theorem readTraitUse_tokens (rest : List Token) :
    Body.readTraitUse scope (u.tokens ++ rest) =
      (u.names.map (scope.resolve ·.text), rest) := by
  rw [tokens, List.append_assoc, readTraitUse_nameList,
    readTraitUse_endTokens, List.append_nil]

end WrittenTraitUse

/-! ## Members -/

/-- A written member of a type. -/
inductive WrittenMember where
  | method
      (lead : List MemberPiece) (keyword : Keyword "function")
      (method : WrittenMethod) (parameters : Nested [parentheses])
  | traitUse
      (lead : List MemberPiece) (keyword : Keyword "use")
      (traits : WrittenTraitUse)
  | other (pieces : List MemberPiece)

namespace WrittenMember

def tokens : WrittenMember → List Token
  | method lead keyword m parameters =>
      lead.flatMap (·.tokens) ++
        .name keyword.1 :: m.tokens parameters.1
  | traitUse lead keyword traits =>
      lead.flatMap (·.tokens) ++ .name keyword.1 :: traits.tokens
  | other pieces => pieces.flatMap (·.tokens) ++ [.punct ';']

/-- The method that the member declares, as far as its outline goes. -/
def methods (scope : Scope) : WrittenMember → List Method
  | method _ _ m _ =>
      [{ name := m.name, returnType := m.returnType.map (·.text scope) }]
  | _ => []

/-- The qualified names of the traits that the member uses. -/
def traits (scope : Scope) : WrittenMember → List String
  | traitUse _ _ u => u.names.map (scope.resolve ·.text)
  | _ => []

/-- The method that the member declares after a doc comment. -/
def declared (scope : Scope) (doc : Option String) :
    WrittenMember → List Method
  | method lead _ m parameters =>
      [{ name := m.name
         doc := docAfter doc lead
         parameters := Signature.readParameters scope parameters.1
         returnType := m.returnType.map (·.text scope) }]
  | _ => []

/-- The doc comment that is in force after the member: it outlasts used traits,
and no other member. -/
def docAfter (doc : Option String) : WrittenMember → Option String
  | traitUse lead _ _ => Grammar.docAfter doc lead
  | _ => none

theorem outline_declared
    (scope : Scope) (doc : Option String) (member : WrittenMember) :
    (member.declared scope doc).map Method.outline =
      member.methods scope := by
  cases member <;> rfl

end WrittenMember

/-- The methods that members declare, each with the doc comment before it. -/
def declaredMethods (scope : Scope) :
    Option String → List WrittenMember → List Method
  | _, [] => []
  | doc, member :: members =>
      member.declared scope doc ++
        declaredMethods scope (member.docAfter doc) members

theorem outline_declaredMethods
    (scope : Scope) (doc : Option String) (members : List WrittenMember) :
    (declaredMethods scope doc members).map Method.outline =
      members.flatMap (·.methods scope) := by
  induction members generalizing doc with
  | nil => rfl
  | cons member members ih =>
      rw [declaredMethods, List.map_append, member.outline_declared, ih,
        List.flatMap_cons]

section Reading

variable {scope : Scope} (owner : String)

/-- The keyword of a method leads to its reader. -/
theorem readItem_method
    (imports : scope.NamesImports) (keyword : Keyword "function")
    (m : WrittenMethod) (parameters : Nested [parentheses])
    (doc : Option String) (rest : List Token) :
    Body.readItem scope 0 doc (.name keyword.1)
        (m.tokens parameters.1 ++ rest) =
      .ok (.method
        { name := m.name
          doc
          parameters := Signature.readParameters scope parameters.1
          returnType := m.returnType.map (·.text scope) } rest) := by
  have isPair : IsPair [parentheses] '(' ')' := by decide
  rw [Body.readItem, if_pos ⟨rfl, keyword.isKeyword⟩,
    m.readMethod_tokens imports isPair parameters.2 doc rest]
  · rfl
  all_goals simp

theorem readItem_traitUse
    (keyword : Keyword "use") (u : WrittenTraitUse)
    (doc : Option String) (rest : List Token) :
    Body.readItem scope 0 doc (.name keyword.1) (u.tokens ++ rest) =
      .ok (.traitUse (u.names.map (scope.resolve ·.text)) rest) := by
  have notFunction :
      ¬ (0 = 0 ∧ Token.isKeyword "function" (.name keyword.1)) := by
    simp [Token.isKeyword, keyword.2]
  rw [Body.readItem, if_neg notFunction, if_pos ⟨rfl, keyword.isKeyword⟩,
    u.readTraitUse_tokens]
  all_goals simp

/-- What a member declares comes before what the others do. -/
def addMember
    (scope : Scope) (doc : Option String) (member : WrittenMember)
    (later : Body.Members) : Body.Members where
  methods := member.declared scope doc ++ later.methods
  traits := member.traits scope ++ later.traits

/-- The reader stops where the next member starts. -/
theorem readFrom_member
    (imports : scope.NamesImports) (member : WrittenMember)
    (doc : Option String) (rest : List Token) :
    Body.readFrom scope owner 0 doc (member.tokens ++ rest) =
      (Body.readFrom scope owner 0 (member.docAfter doc) rest).map
        fun (members, after) => (addMember scope doc member members, after) := by
  cases member with
  | method lead keyword m parameters =>
      rw [WrittenMember.tokens, List.append_assoc, List.cons_append,
        readFrom_pieces, Body.readFrom_cons,
        readItem_method imports keyword m parameters]
      rfl
  | traitUse lead keyword u =>
      rw [WrittenMember.tokens, List.append_assoc, List.cons_append,
        readFrom_pieces, Body.readFrom_cons, readItem_traitUse]
      rfl
  | other pieces =>
      rw [WrittenMember.tokens, List.append_assoc, List.singleton_append,
        readFrom_pieces, Body.readFrom_cons, Body.readItem]
      exact (congrFun Except.map_id _).symm

/-- The reader of a body finds the methods and the traits of its members. -/
theorem readFrom_members
    (imports : scope.NamesImports) (members : List WrittenMember)
    (doc : Option String) (rest : List Token) :
    Body.readFrom scope owner 0 doc
        (members.flatMap (·.tokens) ++ .punct '\x7d' :: rest) =
      .ok ({ methods := declaredMethods scope doc members
             traits := members.flatMap (·.traits scope) }, rest) := by
  induction members generalizing doc with
  | nil =>
      rw [List.flatMap_nil, List.nil_append, Body.readFrom_cons,
        Body.readItem]
      rfl
  | cons member members ih =>
      rw [List.flatMap_cons, List.append_assoc,
        readFrom_member owner imports, ih]
      rfl

end Reading

end Grammar

end BusReference.Php
