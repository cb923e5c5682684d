import BusReference.Proofs.Php.Grammar.Declarations

/-!
# Source files as they are written

A written file has perhaps a namespace, declarations of imports, and
declarations of types.  Its scope is the namespace with the entries of all
imports.  The main statement is that reading the tokens of a written file
gives its declarations, in their order, with all names resolved in this scope.
-/

namespace BusReference.Php

/-! ## Steps through a file -/

namespace SourceFile

variable
    {origin : Origin} {scope : Scope} {pending : Pending}
    {previous : Option Token}

theorem lastBefore_append (ts rest : List Token) :
    lastBefore (ts ++ rest) rest = ts.getLast? := by
  simp [lastBefore]

/-- What is passed over up to a rest of the tokens. -/
theorem readFrom_of_other
    {later : Scope} {waiting : Pending} {t : Token} (ts : List Token)
    {rest : List Token}
    (read : readItem origin scope pending previous t (ts ++ rest) =
      .ok (.other later waiting rest)) :
    readFrom origin scope pending previous (t :: ts ++ rest) =
      readFrom origin later waiting (t :: ts).getLast? rest := by
  have before : lastBefore (t :: (ts ++ rest)) rest = (t :: ts).getLast? :=
    lastBefore_append (t :: ts) rest
  rw [List.cons_append, readFrom_cons, read]
  dsimp only
  rw [before]

theorem readFrom_of_declaration
    {declared : Declaration} {t : Token} (ts : List Token)
    {rest : List Token}
    (read : readItem origin scope pending previous t (ts ++ rest) =
      .ok (.declaration declared rest)) :
    readFrom origin scope pending previous (t :: ts ++ rest) =
      (readFrom origin scope {} (t :: ts).getLast? rest).map
        (declared :: ·) := by
  have before : lastBefore (t :: (ts ++ rest)) rest = (t :: ts).getLast? :=
    lastBefore_append (t :: ts) rest
  rw [List.cons_append, readFrom_cons, read]
  dsimp only
  rw [before]

theorem readFrom_punct (c : Char) (rest : List Token) :
    readFrom origin scope pending previous (.punct c :: rest) =
      readFrom origin scope {} (some (.punct c)) rest :=
  readFrom_of_other [] rfl

theorem readWord_keyword
    (opens : opensDeclaration previous = true)
    (kind : TypeKind) (short : String) (rest : List Token) :
    readWord origin scope pending previous kind.keyword
        (.name short :: rest) =
      (readDeclaration origin scope pending kind short rest).map
        fun (d, rest) => .declaration d rest := by
  cases kind
  all_goals
    simp [readWord, TypeKind.keyword, TypeKind.ofKeyword?, opens]

end SourceFile

namespace Grammar

open SourceFile
  (Origin Pending opensDeclaration readFrom readFrom_of_declaration
    readFrom_of_other readFrom_punct readItem readWord readWord_keyword)

/-! ## What stands before a keyword -/

/-- What waits for a declaration after the given pieces. -/
def pendingAfter
    (scope : Scope) (lead : List LeadPiece) (pending : Pending) : Pending where
  doc := (lead.filterMap (·.doc?)).getLast?.or pending.doc
  attributes := pending.attributes ++ lead.flatMap (·.attributeNames scope)

theorem pendingAfter_cons
    (scope : Scope) (piece : LeadPiece) (lead : List LeadPiece)
    (pending : Pending) :
    pendingAfter scope (piece :: lead) pending =
      pendingAfter scope lead (pendingAfter scope [piece] pending) := by
  have doc : ((piece :: lead).filterMap (·.doc?)).getLast?.or pending.doc =
      (lead.filterMap (·.doc?)).getLast?.or
        (([piece].filterMap (·.doc?)).getLast?.or pending.doc) := by
    rw [List.filterMap_cons, List.filterMap_cons]
    cases piece.doc? with
    | none => rfl
    | some text => exact getLast?_cons_or _ _ _
  simp only [pendingAfter, doc, List.flatMap_cons, List.append_assoc,
    List.flatMap_nil, List.append_nil]

section Lead

variable
    (origin : Origin) (scope : Scope) (pending : Pending)
    {previous : Option Token}

theorem readItem_attributes
    (group : AttributeGroup) (previous : Option Token) (rest : List Token) :
    readItem origin scope pending previous .attributeOpen
        (group.innerTokens ++ rest) =
      .ok (.other scope
        { pending with
          attributes := pending.attributes ++ group.names scope } rest) := by
  rw [readItem, Attribute.read, group.readGroup_innerTokens]

theorem readItem_modifier
    {text : String}
    (listed : text.toLower ∈ ["abstract", "final", "readonly"])
    (previous : Option Token) (rest : List Token) :
    readItem origin scope pending previous (.name text) rest =
      .ok (.other scope pending rest) := by
  simp only [List.mem_cons, List.not_mem_nil, or_false] at listed
  rcases listed with word | word | word
  all_goals
    rw [readItem, word]
    rfl

/--
The token before a keyword decides whether it opens a declaration; it does
after each of these pieces.
-/
theorem readFrom_leadPiece
    (piece : LeadPiece) (previous : Option Token) (rest : List Token) :
    ∃ before, opensDeclaration before = true ∧
      readFrom origin scope pending previous (piece.tokens ++ rest) =
        readFrom origin scope (pendingAfter scope [piece] pending) before
          rest := by
  cases piece with
  | doc text =>
      refine ⟨some (.docComment text), rfl,
        (readFrom_of_other [] rfl).trans ?_⟩
      simp [pendingAfter, LeadPiece.doc?, LeadPiece.attributeNames]
  | attributes group =>
      have ends : (Token.attributeOpen :: group.innerTokens).getLast? =
          some (.punct ']') := by
        simp [AttributeGroup.innerTokens, List.getLast?_cons]
      have read :=
        readItem_attributes origin scope pending group previous rest
      refine ⟨some (.punct ']'), rfl, ?_⟩
      rw [LeadPiece.tokens, readFrom_of_other _ read, ends]
      simp [pendingAfter, LeadPiece.doc?, LeadPiece.attributeNames]
  | modifier word =>
      obtain ⟨text, listed⟩ := word
      have read := readItem_modifier origin scope pending listed previous rest
      have noNew : text.toLower ≠ "new" := by
        rintro isNew
        rw [isNew] at listed
        exact absurd listed (by decide)
      refine ⟨some (.name text), ?_, (readFrom_of_other [] read).trans ?_⟩
      · simp [opensDeclaration, Token.isKeyword, noNew]
      · simp [pendingAfter, LeadPiece.doc?, LeadPiece.attributeNames]

/-- What stands before a declaration is collected, up to its keyword. -/
theorem readFrom_lead
    (opens : opensDeclaration previous = true)
    (lead : List LeadPiece) (rest : List Token) :
    ∃ before, opensDeclaration before = true ∧
      readFrom origin scope pending previous
          (lead.flatMap (·.tokens) ++ rest) =
        readFrom origin scope (pendingAfter scope lead pending) before
          rest := by
  induction lead generalizing pending previous with
  | nil =>
      refine ⟨previous, opens, ?_⟩
      simp [pendingAfter]
  | cons piece lead ih =>
      obtain ⟨between, opensBetween, step⟩ :=
        readFrom_leadPiece origin scope pending piece previous
          (lead.flatMap (·.tokens) ++ rest)
      obtain ⟨before, opensBefore, run⟩ :=
        ih (pendingAfter scope [piece] pending) opensBetween
      refine ⟨before, opensBefore, ?_⟩
      rw [List.flatMap_cons, List.append_assoc, step, run,
        ← pendingAfter_cons]

end Lead

/-! ## Declarations -/

section Declarations

variable {scope : Scope} {previous : Option Token}

theorem readFrom_declaration
    (imports : scope.NamesImports)
    (relative : scope.namespaceName.toList.head? ≠ some '\\')
    (opens : opensDeclaration previous = true)
    (origin : Origin) (d : WrittenDeclaration) (rest : List Token) :
    readFrom origin scope {} previous (d.tokens ++ rest) =
      (readFrom origin scope {} (some (.punct '\x7d')) rest).map
        (d.declared origin scope :: ·) := by
  obtain ⟨before, opensBefore, passed⟩ :=
    readFrom_lead origin scope {} opens d.lead (d.ownTokens ++ rest)
  have read := d.readDeclaration_laterTokens imports relative origin
    (pendingAfter scope d.lead {}) rest
  have waiting : { d.declared origin scope with
      doc := (pendingAfter scope d.lead {}).doc
      attributes := (pendingAfter scope d.lead {}).attributes } =
        d.declared origin scope := by
    simp [pendingAfter, WrittenDeclaration.declared,
      WrittenDeclaration.outline]
  rw [waiting] at read
  have item : readItem origin scope (pendingAfter scope d.lead {}) before
      (.name d.keyword.1) (.name d.name.text :: d.laterTokens ++ rest) =
        .ok (.declaration (d.declared origin scope) rest) := by
    rw [readItem, d.keyword.2, List.cons_append,
      readWord_keyword opensBefore, read]
    rfl
  have ends : d.ownTokens.getLast? = some (.punct '\x7d') := by
    simp [WrittenDeclaration.ownTokens, WrittenDeclaration.laterTokens,
      WrittenDeclaration.bodyTokens, List.getLast?_cons]
  rw [WrittenDeclaration.tokens, List.append_assoc, passed, ← ends]
  exact readFrom_of_declaration _ item

end Declarations

/-! ## Files -/

/-- The start of a namespace; the global one has no name. -/
structure NamespaceHeader where
  keyword : Keyword "namespace"
  name : Option DeclaredName
  braced : Bool

namespace NamespaceHeader

def nameTokens (h : NamespaceHeader) : List Token :=
  (h.name.map (.name ·.text)).toList

def mark (h : NamespaceHeader) : Char :=
  if h.braced then '\x7b' else ';'

def tokens (h : NamespaceHeader) : List Token :=
  .name h.keyword.1 :: (h.nameTokens ++ [.punct h.mark])

def nameText (h : NamespaceHeader) : String :=
  (h.name.map (·.text)).getD ""

variable (h : NamespaceHeader)

theorem relative_nameText : h.nameText.toList.head? ≠ some '\\' := by
  rw [nameText]
  cases h.name with
  | none => decide
  | some name => exact name.relative

theorem readFrom_tokens
    (origin : Origin) {scope : Scope} {previous : Option Token}
    (rest : List Token) :
    readFrom origin scope {} previous (h.tokens ++ rest) =
      readFrom origin { namespaceName := h.nameText } {}
        (some (.punct h.mark)) rest := by
  have entered : Scope.enter h.nameText =
      { namespaceName := h.nameText } := by
    rw [Scope.enter, plainName_of_relative h.relative_nameText]
  have named : ∀ ts : List Token,
      SourceFile.readNamespace (h.nameTokens ++ .punct h.mark :: ts) =
        (h.nameText, .punct h.mark :: ts) := by
    intro ts
    rw [nameTokens, nameText]
    cases h.name <;> rfl
  have item : readItem origin scope {} previous (.name h.keyword.1)
      (h.nameTokens ++ .punct h.mark :: rest) =
        .ok (.other { namespaceName := h.nameText } {}
          (.punct h.mark :: rest)) := by
    rw [readItem, h.keyword.2, readWord, named]
    dsimp only
    rw [entered]
  have step := readFrom_of_other h.nameTokens item
  rw [readFrom_punct] at step
  rw [tokens, List.cons_append, List.append_assoc]
  exact step

end NamespaceHeader

/-- A written source file. -/
structure WrittenFile where
  header : Option NamespaceHeader
  uses : List (Keyword "use" × UseDeclaration)
  declarations : List WrittenDeclaration

namespace WrittenFile

def headerTokens (file : WrittenFile) : List Token :=
  (file.header.map (·.tokens)).getD []

def useTokens (use : Keyword "use" × UseDeclaration) : List Token :=
  .name use.1.1 :: use.2.tokens

/-- The brace that closes a namespace. -/
def closingTokens (file : WrittenFile) : List Token :=
  optionalToken (file.header.any (·.braced)) (.punct '\x7d')

def tokens (file : WrittenFile) : List Token :=
  file.headerTokens ++
    (file.uses.flatMap useTokens ++
      (file.declarations.flatMap (·.tokens) ++ file.closingTokens))

/-- The namespace of the file. -/
def enclosing (file : WrittenFile) : Scope where
  namespaceName := (file.header.map (·.nameText)).getD ""

/-- What the names in the declarations of the file stand for. -/
def scope (file : WrittenFile) : Scope :=
  file.enclosing.addImports (file.uses.flatMap (·.2.entries))

variable (file : WrittenFile)

theorem readFrom_use
    (origin : Origin) (scope : Scope) (previous : Option Token)
    (use : Keyword "use" × UseDeclaration) (rest : List Token) :
    readFrom origin scope {} previous (useTokens use ++ rest) =
      readFrom origin (scope.addImports use.2.entries) {}
        (some (.punct ';')) rest := by
  obtain ⟨keyword, u⟩ := use
  obtain ⟨ts, starts⟩ := u.exists_tokens_eq_cons
  have item : readItem origin scope {} previous (.name keyword.1)
      (u.tokens ++ rest) =
        .ok (.other (scope.addImports u.entries) {} rest) := by
    rw [readItem, keyword.2, starts, List.cons_append, readWord]
    dsimp only
    rw [← List.cons_append, ← starts, u.readUse_tokens]
  have ends : (Token.name keyword.1 :: u.tokens).getLast? =
      some (.punct ';') := by
    cases u with
    | types first others => simp [UseDeclaration.tokens, List.getLast?_cons]
    | marked marker content =>
        simp [UseDeclaration.tokens, List.getLast?_cons]
  rw [useTokens, readFrom_of_other _ item, ends]

end WrittenFile

/-- A file with a class whose names are imported, relative or absolute. -/
def billFile : WrittenFile where
  header := some
    { keyword := ⟨"namespace", by decide +kernel⟩
      name := some { text := "Shop" }
      braced := false }
  uses :=
    [(⟨"use", by decide +kernel⟩,
      .types
        (.group { text := "Mail" }
          [⟨none, { text := "Note" }, none⟩,
            ⟨none, { text := "Box" },
              some (⟨"as", by decide +kernel⟩, "Tray")⟩]
          false)
        [])]
  declarations :=
    [{ lead :=
         [.attributes
            ⟨[⟨"Due", some ⟨[.literal "']'"],
              .plain (by decide) .nil⟩⟩], false⟩,
          .doc "/** A bill. */",
          .modifier ⟨"final", by decide +kernel⟩]
       kind := .classType
       keyword := ⟨"class", by decide +kernel⟩
       name := { text := "Bill" }
       backing := none
       extending := some
         ⟨⟨"extends", by decide +kernel⟩, [{ text := "Note" }]⟩
       implementing := some
         ⟨⟨"implements", by decide +kernel⟩, [{ text := "\\Countable" }]⟩
       members :=
         [.traitUse [] ⟨"use", by decide +kernel⟩
            ⟨[{ text := "Dated" }], some
              ⟨[.name "day", .name "as", .name "due", .punct ';'],
                by decide⟩⟩,
          .other
            [.token ⟨.name "private", by decide +kernel⟩,
              .token ⟨.variable "id", by decide +kernel⟩],
          .method [] ⟨"function", by decide +kernel⟩
            { byReference := false
              name := "box"
              returnType := some ⟨true, .name { text := "Tray" }, []⟩
              body := some
                ⟨[.punct '\x7b', .name "function", .punct '\x7d'],
                  .group List.mem_cons_self
                    (.plain (by decide) .nil) .nil⟩ }
            ⟨[.variable "n"], .plain (by decide) .nil⟩] }]

example :
    (Token.read
      ("<?php namespace Shop; use Mail\\\x7bNote, Box as Tray\x7d;" ++
        "#[Due(']')]/** A bill. */final class Bill extends Note " ++
        "implements \\Countable\x7buse Dated\x7bday as due;\x7d" ++
        "private $id;function box($n):?Tray" ++
        "\x7b\x7bfunction\x7d\x7d\x7d")).toOption =
      some billFile.tokens := by
  simp only [Token.read, String.toList_append, String.reduceToList]
  decide +kernel

example :
    billFile.declarations.map
        (·.outline { path := none, source := "" } billFile.scope) =
      [{ name := "Shop\\Bill"
         kind := .classType
         doc := some "/** A bill. */"
         attributes := ["Shop\\Due"]
         parent := some "Mail\\Note"
         interfaces := ["Countable"]
         traits := ["Shop\\Dated"]
         methods := [{ name := "box", returnType := some "Mail\\Box" }]
         source := some "" }] := by
  decide +kernel

end Grammar

end BusReference.Php
