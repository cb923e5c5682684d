import BusReference.Proofs.Php.Body.Members
import BusReference.Proofs.Php.Grammar.Code

/-!
# Anonymous classes

The reader of a file does not know anonymous classes.  It passes over `new`, and
the keyword after it opens no declaration.  But it only looks at the token right
before the keyword: with attributes, modifiers or a comment between `new` and
the keyword, a class whose clauses follow at once is read as a declaration that
is named like the keyword of the first clause.  The body of every other
anonymous class is passed over as code, and there declarations of used traits
are taken for imports.

The main statement is that the reader goes on after each of these, with what is
declared and what is taken for imports.
-/

namespace BusReference.Php.Grammar

open Body (BodyTokens)
open SourceFile
  (Heritage Origin Pending opensDeclaration readDeclaration readFrom
    readFrom_of_declaration readFrom_of_other readFrom_punct readHeader readItem
    readWord_keyword)

/-! ## Anonymous classes -/

/-- The start of an anonymous class, through its keyword. -/
structure AnonymousHead where
  creation : Keyword "new"
  lead : List LeadPiece
  keyword : Keyword TypeKind.classType.keyword

def AnonymousHead.tokens (h : AnonymousHead) : List Token :=
  .name h.creation.1 ::
    (h.lead.flatMap (·.tokens) ++ [.name h.keyword.1])

/-- What the body of a class consists of for the reader of a file. -/
inductive BodyPiece where
  | code (piece : CodePiece)
  | traitUse (used : UsedTraits)

namespace BodyPiece

def tokens : BodyPiece → List Token
  | code piece => piece.tokens
  | traitUse used => used.tokens

/-- The used traits, which are taken for imports. -/
def entries : BodyPiece → List (String × String)
  | code _ => []
  | traitUse used => used.entries

end BodyPiece

/-- The clauses and the body of an anonymous class.  The body has members for
the reader of bodies, and pieces for the reader of files. -/
structure AnonymousBody where
  extending : Option (NameClause "extends")
  implementing : Option (NameClause "implements")
  members : BodyTokens
  pieces : List BodyPiece
  same : members.tokens = pieces.flatMap (·.tokens)
  plain : ∀ t ∈ clauseTokens extending ++ clauseTokens implementing, IsCode t

namespace AnonymousBody

def tokens (b : AnonymousBody) : List Token :=
  clauseTokens b.extending ++ (clauseTokens b.implementing ++
    .punct '\x7b' :: (b.members.tokens ++ [.punct '\x7d']))

/-- The used traits, which are taken for imports. -/
def entries (b : AnonymousBody) : List (String × String) :=
  b.pieces.flatMap (·.entries)

/-- The keyword of the first clause. -/
def clauseWord? (b : AnonymousBody) : Option String :=
  (b.extending.map (·.keyword.1)).or (b.implementing.map (·.keyword.1))

/-- The header after the keyword of its first clause. -/
def laterHeader (b : AnonymousBody) : List Token :=
  match b.extending, b.implementing with
  | some c, _ => nameList ',' c.names ++ clauseTokens b.implementing
  | none, some c => nameList ',' c.names
  | none, none => []

/-- The interfaces that are found in the header without its first clause. -/
def mistakenInterfaces (scope : Scope) (b : AnonymousBody) : List String :=
  if b.extending.isSome then clauseNames scope b.implementing else []

/-- What is declared where the keyword of the first clause is taken for a name:
a class without a parent, since the names of that clause do not count. -/
def mistaken
    (origin : Origin) (scope : Scope) (pending : Pending) (word : String)
    (b : AnonymousBody) : Declaration :=
  { Declaration.named (scope.qualify word) .classType with
    doc := pending.doc
    attributes := pending.attributes
    interfaces := b.mistakenInterfaces scope
    traits := (b.members.declared scope).traits
    methods := (b.members.declared scope).methods
    path := origin.path
    source := some origin.source }

end AnonymousBody

section Reading

variable
    (origin : Origin) (scope : Scope) (pending : Pending)
    (previous : Option Token) (rest : List Token)

theorem AnonymousHead.readFrom_lead (h : AnonymousHead) :
    ∃ before, opensDeclaration before = !h.lead.isEmpty ∧
      readFrom origin scope pending previous
          (.name h.creation.1 :: (h.lead.flatMap (·.tokens) ++ rest)) =
        readFrom origin scope (pendingAfter scope h.lead {}) before rest := by
  have created : ∀ ts : List Token,
      readFrom origin scope pending previous (.name h.creation.1 :: ts) =
        readFrom origin scope {} (some (.name h.creation.1)) ts := by
    intro ts
    refine readFrom_of_other [] ?_
    rw [readItem, h.creation.2]
    rfl
  rw [created]
  cases h.lead with
  | nil =>
      refine ⟨_, ?_, rfl⟩
      simp [opensDeclaration, Token.isKeyword, h.creation.2]
  | cons piece lead =>
      obtain ⟨between, opens, first⟩ := readFrom_leadPiece origin scope {}
        piece (some (.name h.creation.1)) (lead.flatMap (·.tokens) ++ rest)
      obtain ⟨before, opensBefore, others⟩ := Grammar.readFrom_lead origin
        scope (pendingAfter scope [piece] {}) opens lead rest
      refine ⟨before, opensBefore, ?_⟩
      rw [List.flatMap_cons, List.append_assoc, first, others,
        ← pendingAfter_cons]

theorem BodyPiece.readFrom_tokens (piece : BodyPiece) :
    ∃ waiting before,
      readFrom origin scope pending previous (piece.tokens ++ rest) =
        readFrom origin (scope.addImports piece.entries) waiting before
          rest := by
  cases piece with
  | code piece =>
      obtain ⟨waiting, before, -, step⟩ :=
        piece.readFrom_tokens origin scope pending previous rest
      exact ⟨waiting, before, step⟩
  | traitUse used =>
      exact ⟨{}, _, used.readFrom_tokens origin scope pending previous rest⟩

theorem readFrom_bodyPieces (pieces : List BodyPiece) :
    ∃ waiting before,
      readFrom origin scope pending previous
          (pieces.flatMap (·.tokens) ++ rest) =
        readFrom origin (scope.addImports (pieces.flatMap (·.entries)))
          waiting before rest := by
  induction pieces generalizing scope pending previous with
  | nil => exact ⟨pending, previous, rfl⟩
  | cons piece pieces ih =>
      obtain ⟨between, next, step⟩ := piece.readFrom_tokens origin scope
        pending previous (pieces.flatMap (·.tokens) ++ rest)
      obtain ⟨waiting, before, run⟩ :=
        ih (scope.addImports piece.entries) between next
      refine ⟨waiting, before, ?_⟩
      rw [List.flatMap_cons, List.append_assoc, step, run, List.flatMap_cons,
        Scope.addImports_append]

namespace AnonymousBody

variable (b : AnonymousBody)

/-- As code, the clauses and the body declare nothing. -/
theorem readFrom_tokens :
    readFrom origin scope pending previous (b.tokens ++ rest) =
      readFrom origin (scope.addImports b.entries) {} (some (.punct '\x7d'))
        rest := by
  have split : b.tokens ++ rest =
      (clauseTokens b.extending ++ clauseTokens b.implementing) ++
        .punct '\x7b' ::
          (b.pieces.flatMap (·.tokens) ++ .punct '\x7d' :: rest) := by
    simp [tokens, b.same]
  obtain ⟨between, next, header⟩ := Grammar.readFrom_tokens origin scope
    pending previous b.plain
    (.punct '\x7b' :: (b.pieces.flatMap (·.tokens) ++ .punct '\x7d' :: rest))
  obtain ⟨waiting, before, body⟩ := readFrom_bodyPieces origin scope {}
    (some (.punct '\x7b')) (.punct '\x7d' :: rest) b.pieces
  rw [split, header, readFrom_punct, body, readFrom_punct]
  rfl

theorem addNames_none (kind : TypeKind) (names : List String) (h : Heritage) :
    addNames kind .none names h = h := by
  induction names with
  | nil => rfl
  | cons name names ih => exact ih

/-- After the keyword of the first clause, its names do not count. -/
theorem readHeader_laterHeader (owner : String) (us : List Token) :
    readHeader scope .classType owner .none {}
        (b.laterHeader ++ .punct '\x7b' :: us) =
      .ok ({ interfaces := b.mistakenInterfaces scope }, us) := by
  have opened : ∀ (clause : SourceFile.Clause) (h : Heritage),
      readHeader scope .classType owner clause h (.punct '\x7b' :: us) =
        .ok (h, us) := fun _ _ => by rw [readHeader, if_pos rfl]
  rw [laterHeader, mistakenInterfaces]
  cases b.extending with
  | some c =>
      dsimp only
      rw [List.append_assoc, readHeader_nameList, addNames_none,
        readHeader_clauseTokens _
          fun keyword ts => readHeader_implements ts keyword,
        opened, addNames_implementing]
      rfl
  | none =>
      cases b.implementing with
      | none => exact opened _ _
      | some c =>
          dsimp only
          rw [readHeader_nameList, addNames_none, opened]
          rfl

theorem tokens_eq_cons {word : String} (first : b.clauseWord? = some word) :
    b.tokens = .name word ::
      (b.laterHeader ++
        .punct '\x7b' :: (b.members.tokens ++ [.punct '\x7d'])) := by
  rw [tokens, laterHeader]
  rw [clauseWord?] at first
  cases extending : b.extending with
  | some c =>
      rw [extending] at first
      cases first
      simp [clauseTokens, NameClause.tokens]
  | none =>
      obtain ⟨c, implementing, rfl⟩ :
          ∃ c, b.implementing = some c ∧ c.keyword.1 = word := by
        simpa [extending] using first
      simp [implementing, clauseTokens, NameClause.tokens]

/-- The keyword of the first clause is taken for a name, and what follows it for
the header and the body of a class. -/
theorem readDeclaration_mistaken (word : String) :
    readDeclaration origin scope pending .classType word
        (b.laterHeader ++
          .punct '\x7b' :: (b.members.tokens ++ .punct '\x7d' :: rest)) =
      .ok (b.mistaken origin scope pending word, rest) := by
  rw [readDeclaration, b.readHeader_laterHeader]
  dsimp only
  rw [Body.read_bodyTokens]
  rfl

end AnonymousBody

end Reading

/-! ## Parts of code -/

/--
Code with anonymous classes.  The arguments of an anonymous class may hold parts
of any kind, so a class with arguments is told by what comes before and after
them.
-/
inductive CodePart where
  | piece (piece : CodePiece)
  /-- An anonymous class without arguments. -/
  | anonymous (head : AnonymousHead) (body : AnonymousBody)
  /-- An anonymous class through the parenthesis that opens its arguments. -/
  | opening (head : AnonymousHead)
  /-- The rest of an anonymous class after its arguments. -/
  | closing (body : AnonymousBody)

namespace CodePart

def tokens : CodePart → List Token
  | piece p => p.tokens
  | anonymous head body => head.tokens ++ body.tokens
  | opening head => head.tokens ++ [.punct '(']
  | closing body => .punct ')' :: body.tokens

/-- Whether a declaration may follow the part. -/
def settles : CodePart → Bool
  | piece p => p.settles
  | _ => true

/-- The keyword that is taken for the name of a class: that of the first clause,
if something stands between `new` and the keyword of the anonymous class. -/
def mistaken? : CodePart → Option String
  | anonymous head body =>
      if head.lead.isEmpty then none else body.clauseWord?
  | _ => none

/-- What is declared by mistake. -/
def declarations
    (origin : Origin) (scope : Scope) (part : CodePart) : List Declaration :=
  match part with
  | anonymous head body =>
      part.mistaken?.toList.map
        (body.mistaken origin scope (pendingAfter scope head.lead {}))
  | _ => []

theorem length_declarations
    (origin : Origin) (scope : Scope) (part : CodePart) :
    (part.declarations origin scope).length =
      part.mistaken?.toList.length := by
  cases part with
  | anonymous head body => rw [declarations, List.length_map]
  | _ => rfl

theorem declarations_eq_nil
    (origin : Origin) (scope : Scope) {part : CodePart}
    (notMistaken : part.mistaken? = none) :
    part.declarations origin scope = [] := by
  rw [← List.length_eq_zero_iff, length_declarations, notMistaken]
  rfl

/-- The used traits that are taken for imports.  In what is declared by mistake
they are read as used traits. -/
def entries (part : CodePart) : List (String × String) :=
  match part with
  | anonymous _ body => if part.mistaken?.isSome then [] else body.entries
  | closing body => body.entries
  | _ => []

/-- What is in force after the part. -/
def after (scope : Scope) (part : CodePart) : Scope :=
  scope.addImports part.entries

/-- The part declares nothing and changes nothing that is in force. -/
structure IsUnseen (scope : Scope) (part : CodePart) : Prop where
  notMistaken : part.mistaken? = none
  sameNames : ∀ name, (part.after scope).resolve name = scope.resolve name

end CodePart

section Parts

variable
    (origin : Origin) (scope : Scope) (pending : Pending)
    (previous : Option Token) (rest : List Token)

/-- The keyword of an anonymous class is passed over if nothing comes before it
but `new`, or if no name follows it. -/
theorem AnonymousHead.readFrom_tokens
    (h : AnonymousHead)
    (passed : h.lead = [] ∨ ∃ t ts, rest = t :: ts ∧ ∀ text, t ≠ .name text) :
    readFrom origin scope pending previous (h.tokens ++ rest) =
      readFrom origin scope {} (some (.name h.keyword.1)) rest := by
  obtain ⟨before, opens, step⟩ := h.readFrom_lead origin scope pending
    previous (.name h.keyword.1 :: rest)
  have split : h.tokens ++ rest = .name h.creation.1 ::
      (h.lead.flatMap (·.tokens) ++ .name h.keyword.1 :: rest) := by
    simp [tokens]
  rw [split, step]
  rcases passed with nothing | ⟨t, ts, rfl, noName⟩
  · rw [nothing] at opens ⊢
    exact CodePiece.readFrom_mention origin scope _ rest opens h.keyword
  · have listed : h.keyword.1.toLower ∈ bareKeywords := by
      rw [h.keyword.2]
      decide
    exact CodePiece.readFrom_bare origin scope _ before ts
      ⟨h.keyword.1, listed⟩ noName

/-- Whatever follows the keyword at once, but for a clause, is no name. -/
theorem AnonymousBody.exists_tokens_eq_cons
    {b : AnonymousBody} (noClause : b.clauseWord? = none) :
    ∃ ts, b.tokens = .punct '\x7b' :: ts := by
  obtain ⟨noExtending, noImplementing⟩ :
      b.extending = none ∧ b.implementing = none := by
    simpa [clauseWord?] using noClause
  rw [tokens, noExtending, noImplementing]
  exact ⟨_, rfl⟩

/-- The keyword of the first clause is taken for the name of a class. -/
theorem readFrom_mistaken
    {h : AnonymousHead} {b : AnonymousBody} {word : String}
    (lead : h.lead ≠ []) (first : b.clauseWord? = some word) :
    readFrom origin scope pending previous (h.tokens ++ (b.tokens ++ rest)) =
      (readFrom origin scope {} (some (.punct '\x7d')) rest).map
        (b.mistaken origin scope (pendingAfter scope h.lead {}) word :: ·) := by
  obtain ⟨before, opens, step⟩ := h.readFrom_lead origin scope pending
    previous (.name h.keyword.1 :: (b.tokens ++ rest))
  have split : h.tokens ++ (b.tokens ++ rest) = .name h.creation.1 ::
      (h.lead.flatMap (·.tokens) ++
        .name h.keyword.1 :: (b.tokens ++ rest)) := by
    simp [AnonymousHead.tokens]
  have opensBefore : opensDeclaration before = true := by
    rw [opens, List.isEmpty_eq_false_iff.mpr lead]
    rfl
  have read := b.readDeclaration_mistaken origin scope
    (pendingAfter scope h.lead {}) rest word
  have item : readItem origin scope (pendingAfter scope h.lead {}) before
      (.name h.keyword.1) (b.tokens ++ rest) =
        .ok (.declaration
          (b.mistaken origin scope (pendingAfter scope h.lead {}) word)
          rest) := by
    rw [readItem, h.keyword.2, b.tokens_eq_cons first, List.cons_append,
      readWord_keyword opensBefore, List.append_assoc, List.cons_append,
      List.append_assoc, List.singleton_append, read]
    rfl
  have ends : (Token.name h.keyword.1 :: b.tokens).getLast? =
      some (.punct '\x7d') := by
    simp [AnonymousBody.tokens, List.getLast?_cons]
  rw [split, step, ← ends]
  exact readFrom_of_declaration b.tokens item

/-- Without a clause, or without anything before it, the keyword of an anonymous
class opens no declaration. -/
theorem CodePart.passed_of_not_mistaken
    {h : AnonymousHead} {b : AnonymousBody}
    (notMistaken : (anonymous h b).mistaken? = none) :
    h.lead = [] ∨ ∃ t ts, b.tokens ++ rest = t :: ts ∧
      ∀ text, t ≠ .name text := by
  by_cases lead : h.lead = []
  · exact .inl lead
  · have noClause : b.clauseWord? = none := by
      simpa [mistaken?, lead] using notMistaken
    obtain ⟨ts, starts⟩ := AnonymousBody.exists_tokens_eq_cons noClause
    exact .inr ⟨.punct '\x7b', ts ++ rest, by rw [starts]; rfl, nofun⟩

theorem map_nil_append (read : Except Fault (List Declaration)) :
    read.map ([] ++ ·) = read :=
  congrFun Except.map_id read

/-- The reader of a file goes on after the part. -/
theorem CodePart.readFrom_tokens (part : CodePart) :
    ∃ waiting before, IsReady part.settles waiting before ∧
      readFrom origin scope pending previous (part.tokens ++ rest) =
        (readFrom origin (part.after scope) waiting before rest).map
          (part.declarations origin scope ++ ·) := by
  have braced : IsReady true {} (some (.punct '\x7d')) := fun _ => ⟨rfl, rfl⟩
  cases part with
  | piece p =>
      obtain ⟨waiting, before, ready, step⟩ :=
        p.readFrom_tokens origin scope pending previous rest
      exact ⟨waiting, before, ready, step.trans (map_nil_append _).symm⟩
  | opening head =>
      have step := head.readFrom_tokens origin scope pending previous
        (.punct '(' :: rest) (.inr ⟨_, _, rfl, nofun⟩)
      refine ⟨{}, some (.punct '('), fun _ => ⟨rfl, rfl⟩, ?_⟩
      rw [tokens, List.append_assoc, List.singleton_append, step,
        readFrom_punct]
      exact (map_nil_append _).symm
  | closing body =>
      refine ⟨{}, _, braced, ?_⟩
      rw [tokens, List.cons_append, readFrom_punct, body.readFrom_tokens]
      exact (map_nil_append _).symm
  | anonymous head body =>
      refine ⟨{}, _, braced, ?_⟩
      rw [tokens, List.append_assoc]
      cases mistaken : (anonymous head body).mistaken? with
      | some word =>
          obtain ⟨lead, first⟩ :
              head.lead ≠ [] ∧ body.clauseWord? = some word := by
            simpa [mistaken?] using mistaken
          rw [readFrom_mistaken origin scope pending previous rest lead first,
            after, entries, mistaken, declarations, mistaken]
          rfl
      | none =>
          have passed := passed_of_not_mistaken rest mistaken
          rw [head.readFrom_tokens origin scope pending previous _ passed,
            body.readFrom_tokens, after, entries, mistaken, declarations,
            mistaken]
          exact (map_nil_append _).symm

end Parts

end BusReference.Php.Grammar
