import BusReference.Proofs.Php.Body.Types
import BusReference.Proofs.Php.Grammar.Agreement
import BusReference.Proofs.Php.Grammar.AnonymousClasses

/-!
# Files with code

Besides namespaces, imports and declarations, a file has code, and with it
anonymous classes.  The main statement tells what such a file is read as, and
when this is what the file declares.
-/

namespace BusReference.Php

open SourceFile
  (Origin Pending opensDeclaration readDeclaration readFrom
    readFrom_of_declaration readItem readWord_keyword)

theorem SourceFile.name_of_readDeclaration
    {origin : Origin} {scope : Scope} {pending : Pending} {kind : TypeKind}
    {short : String} {ts rest : List Token} {d : Declaration}
    (done :
      readDeclaration origin scope pending kind short ts = .ok (d, rest)) :
    d.name = plainName (scope.qualify short) ∧ d.kind = kind := by
  obtain ⟨heritage, body, members, -, -, rfl⟩ :=
    SourceFile.exists_of_readDeclaration done
  exact ⟨rfl, rfl⟩

namespace Grammar

open Body (TypeTokens)

/-! ## Files with code -/

/-- A declaration of a named type: what stands before its keyword, its name, and
the header and the body. -/
structure NamedType where
  lead : List LeadPiece
  kind : TypeKind
  keyword : Keyword kind.keyword
  name : String
  type : TypeTokens

namespace NamedType

def tokens (d : NamedType) : List Token :=
  d.lead.flatMap (·.tokens) ++
    .name d.keyword.1 :: .name d.name :: d.type.tokens

/-- What the declaration alone is read as. -/
def declared? (origin : Origin) (scope : Scope) (d : NamedType) :
    Option Declaration :=
  (readDeclaration origin scope (pendingAfter scope d.lead {}) d.kind d.name
    d.type.tokens).toOption.map (·.1)

end NamedType

/-- What a file with code consists of. -/
inductive FilePart where
  | code (part : CodePart)
  | namespaceStart (header : NamespaceHeader)
  | imports (keyword : Keyword "use") (use : UseDeclaration)
  | declaration (declared : NamedType)

namespace FilePart

def tokens : FilePart → List Token
  | code part => part.tokens
  | namespaceStart header => header.tokens
  | imports keyword use => WrittenFile.useTokens (keyword, use)
  | declaration d => d.tokens

def isCode : FilePart → Bool
  | code _ => true
  | _ => false

/-- Whether a declaration may follow the part. -/
def settles : FilePart → Bool
  | code part => part.settles
  | _ => true

def mistaken? : FilePart → Option String
  | code part => part.mistaken?
  | _ => none

/-- What is in force after the part. -/
def after (scope : Scope) : FilePart → Scope
  | code part => part.after scope
  | namespaceStart header => { namespaceName := header.nameText }
  | imports _ use => scope.addImports use.entries
  | declaration _ => scope

/-- What the part is read as. -/
def declarations
    (origin : Origin) (scope : Scope) : FilePart → List Declaration
  | code part => part.declarations origin scope
  | declaration d => (d.declared? origin scope).toList
  | _ => []

/-- The qualified name and the kind of what is declared. -/
def names (scope : Scope) : FilePart → List (String × TypeKind)
  | declaration d => [(plainName (scope.qualify d.name), d.kind)]
  | _ => []

/-- Code declares nothing and changes nothing that is in force. -/
def IsUnseen (scope : Scope) : FilePart → Prop
  | code part => part.IsUnseen scope
  | _ => True

end FilePart

/-- All parts but code only stand where a declaration may start, which it may at
first where `settled` holds. -/
def separated (settled : Bool) : List FilePart → Bool
  | [] => true
  | part :: parts =>
      (part.isCode || settled) && separated part.settles parts

/-- The namespaces, imports and declarations among the parts. -/
def statements (parts : List FilePart) : List FilePart :=
  parts.filter (!·.isCode)

/-- What the parts are read as, each in what is in force there. -/
def readDeclarations (origin : Origin) :
    Scope → List FilePart → List Declaration
  | _, [] => []
  | scope, part :: parts =>
      part.declarations origin scope ++
        readDeclarations origin (part.after scope) parts

/-- The qualified names and the kinds of the types that the parts declare. -/
def declaredNames : Scope → List FilePart → List (String × TypeKind)
  | _, [] => []
  | scope, part :: parts =>
      part.names scope ++ declaredNames (part.after scope) parts

/-- In what is in force where it stands, the code is not seen. -/
def AllUnseen : Scope → List FilePart → Prop
  | _, [] => True
  | scope, part :: parts =>
      part.IsUnseen scope ∧ AllUnseen (part.after scope) parts

section Files

variable {scope other : Scope} (origin : Origin)

/-- The declaration is read up to its end, whatever follows. -/
theorem NamedType.exists_declared (scope : Scope) (d : NamedType) :
    ∃ declared, d.declared? origin scope = some declared ∧
      declared.name = plainName (scope.qualify d.name) ∧
      declared.kind = d.kind ∧
      ∀ rest, readDeclaration origin scope (pendingAfter scope d.lead {})
        d.kind d.name (d.type.tokens ++ rest) = .ok (declared, rest) := by
  obtain ⟨base, read⟩ := Body.exists_readDeclaration_tokens origin scope
    (pendingAfter scope d.lead {}) d.kind d.name d.type.header
  have alone := read d.type.body []
  rw [List.append_nil] at alone
  obtain ⟨name, kind⟩ := SourceFile.name_of_readDeclaration alone
  refine ⟨_, ?_, name, kind, read d.type.body⟩
  exact congrArg (fun read => read.toOption.map (·.1)) alone

theorem NamedType.declared?_eq_of_agrees
    (agrees : scope.Agrees other) (d : NamedType) :
    d.declared? origin scope = d.declared? origin other := by
  have attributes : LeadPiece.attributeNames scope =
      LeadPiece.attributeNames other := by
    funext piece
    unfold LeadPiece.attributeNames AttributeGroup.names
    rw [agrees.resolve_eq]
  rw [declared?, declared?, agrees.readDeclaration_eq, pendingAfter,
    pendingAfter, attributes]

/-- The reader of a file stops where the declaration ends. -/
theorem NamedType.readFrom_tokens
    {previous : Option Token} (opens : opensDeclaration previous = true)
    (scope : Scope) (d : NamedType) (rest : List Token) :
    readFrom origin scope {} previous (d.tokens ++ rest) =
      (readFrom origin scope {} (some (.punct '\x7d')) rest).map
        ((d.declared? origin scope).toList ++ ·) := by
  obtain ⟨declared, found, -, -, read⟩ := d.exists_declared origin scope
  obtain ⟨before, opensBefore, lead⟩ := readFrom_lead origin scope {} opens
    d.lead (.name d.keyword.1 :: .name d.name :: (d.type.tokens ++ rest))
  have item : readItem origin scope (pendingAfter scope d.lead {}) before
      (.name d.keyword.1) (.name d.name :: d.type.tokens ++ rest) =
        .ok (.declaration declared rest) := by
    rw [readItem, d.keyword.2, List.cons_append,
      readWord_keyword opensBefore, read]
    rfl
  have ends : (Token.name d.keyword.1 ::
      .name d.name :: d.type.tokens).getLast? = some (.punct '\x7d') := by
    simp [TypeTokens.tokens, List.getLast?_cons]
  rw [tokens, List.append_assoc, List.cons_append, List.cons_append, lead,
    found, ← ends]
  exact readFrom_of_declaration _ item

/-- The reader of a file stops where the next part starts. -/
theorem FilePart.readFrom_tokens
    (scope : Scope) {settled : Bool} {pending : Pending}
    {previous : Option Token} (ready : IsReady settled pending previous)
    (part : FilePart) (apart : part.isCode = true ∨ settled = true)
    (rest : List Token) :
    ∃ waiting before, IsReady part.settles waiting before ∧
      readFrom origin scope pending previous (part.tokens ++ rest) =
        (readFrom origin (part.after scope) waiting before rest).map
          (part.declarations origin scope ++ ·) := by
  have started : part.isCode = false →
      pending = {} ∧ opensDeclaration previous = true := by
    intro noCode
    exact ready (apart.resolve_left (by simp [noCode]))
  cases part with
  | code part => exact part.readFrom_tokens origin scope pending previous rest
  | namespaceStart header =>
      obtain ⟨rfl, -⟩ := started rfl
      refine ⟨{}, some (.punct header.mark), fun _ => ⟨rfl, ?_⟩, ?_⟩
      · rw [NamespaceHeader.mark]
        split <;> rfl
      · exact (header.readFrom_tokens origin rest).trans (map_nil_append _).symm
  | imports keyword use =>
      obtain ⟨rfl, -⟩ := started rfl
      exact ⟨{}, some (.punct ';'), fun _ => ⟨rfl, rfl⟩,
        (WrittenFile.readFrom_use origin scope previous (keyword, use)
          rest).trans (map_nil_append _).symm⟩
  | declaration d =>
      obtain ⟨rfl, opens⟩ := started rfl
      exact ⟨{}, some (.punct '\x7d'), fun _ => ⟨rfl, rfl⟩,
        d.readFrom_tokens origin opens scope rest⟩

/-- The parts of a file are read one after the other. -/
theorem readFrom_fileParts
    (scope : Scope) {settled : Bool} {pending : Pending}
    {previous : Option Token} (ready : IsReady settled pending previous)
    {parts : List FilePart} (apart : separated settled parts = true) :
    readFrom origin scope pending previous (parts.flatMap (·.tokens)) =
      .ok (readDeclarations origin scope parts) := by
  induction parts generalizing scope settled pending previous with
  | nil =>
      rw [List.flatMap_nil, readFrom]
      rfl
  | cons part parts ih =>
      obtain ⟨here, later⟩ :
          (part.isCode = true ∨ settled = true) ∧
            separated part.settles parts = true := by
        simpa [separated] using apart
      obtain ⟨waiting, before, readyLater, step⟩ := part.readFrom_tokens
        origin scope ready here (parts.flatMap (·.tokens))
      rw [List.flatMap_cons, step, ih _ readyLater later]
      rfl

/-! ## Which files are read as what they declare -/

theorem FilePart.map_declarations
    (scope : Scope) {part : FilePart} (notMistaken : part.mistaken? = none) :
    (part.declarations origin scope).map (fun d => (d.name, d.kind)) =
      part.names scope := by
  cases part with
  | code part =>
      rw [declarations, part.declarations_eq_nil origin scope notMistaken]
      rfl
  | declaration d =>
      obtain ⟨declared, found, name, kind, -⟩ := d.exists_declared origin scope
      rw [declarations, names, found, ← name, ← kind]
      rfl
  | _ => rfl

theorem FilePart.length_declarations (scope : Scope) (part : FilePart) :
    (part.declarations origin scope).length =
      (part.names scope).length + part.mistaken?.toList.length := by
  cases part with
  | code part =>
      exact (part.length_declarations origin scope).trans (Nat.zero_add _).symm
  | declaration d =>
      obtain ⟨declared, found, -⟩ := d.exists_declared origin scope
      rw [declarations, found]
      rfl
  | _ => rfl

/-- Each keyword that is taken for a name makes one more declaration. -/
theorem length_readDeclarations (scope : Scope) (parts : List FilePart) :
    (readDeclarations origin scope parts).length =
      (declaredNames scope parts).length +
        (parts.flatMap (·.mistaken?.toList)).length := by
  induction parts generalizing scope with
  | nil => rfl
  | cons part parts ih =>
      rw [readDeclarations, declaredNames, List.flatMap_cons,
        List.length_append, List.length_append, List.length_append, ih,
        part.length_declarations]
      omega

/-- One to one and in order, the declarations are those in the file exactly if no
keyword is taken for a name. -/
theorem map_readDeclarations_iff (scope : Scope) (parts : List FilePart) :
    (readDeclarations origin scope parts).map (fun d => (d.name, d.kind)) =
        declaredNames scope parts ↔
      ∀ part ∈ parts, part.mistaken? = none := by
  constructor
  · intro same
    have count := length_readDeclarations origin scope parts
    rw [← same, List.length_map, Nat.left_eq_add, List.length_eq_zero_iff,
      List.flatMap_eq_nil_iff] at count
    exact fun part listed => Option.toList_eq_nil_iff.mp (count part listed)
  · intro notMistaken
    induction parts generalizing scope with
    | nil => rfl
    | cons part parts ih =>
        obtain ⟨here, later⟩ := List.forall_mem_cons.mp notMistaken
        rw [readDeclarations, declaredNames, List.map_append,
          part.map_declarations origin scope here, ih _ later]

/-- Where no code is seen, the file is read as if there was none. -/
theorem readDeclarations_of_allUnseen
    {parts : List FilePart} (agrees : scope.Agrees other)
    (unseen : AllUnseen scope parts) :
    readDeclarations origin scope parts =
      readDeclarations origin other (statements parts) := by
  induction parts generalizing scope other with
  | nil => rfl
  | cons part parts ih =>
      obtain ⟨here, later⟩ := unseen
      rw [readDeclarations]
      cases part with
      | code part =>
          have nothing := part.declarations_eq_nil origin scope here.notMistaken
          have kept : (part.after scope).Agrees scope := ⟨rfl, here.sameNames⟩
          exact (congrArg (· ++ _) nothing).trans (ih (kept.trans agrees) later)
      | namespaceStart header =>
          exact congrArg ([] ++ ·) (ih ⟨rfl, fun _ => rfl⟩ later)
      | imports keyword use =>
          exact congrArg ([] ++ ·) (ih (agrees.addImports use.entries) later)
      | declaration d =>
          have own := d.declared?_eq_of_agrees origin agrees
          exact congrArg₂ (·.toList ++ ·) own (ih agrees later)

/-! ## Used traits as imports -/

theorem CodePart.exists_of_mem_entries
    {part : CodePart} {entry : String × String}
    (listed : entry ∈ part.entries) :
    ∃ name, entry = UsedTraits.entryOf name := by
  have inBody : ∀ {body : AnonymousBody}, entry ∈ body.entries →
      ∃ name, entry = UsedTraits.entryOf name := by
    intro body inside
    obtain ⟨piece, -, member⟩ := List.mem_flatMap.mp inside
    cases piece with
    | code piece => cases member
    | traitUse used =>
        obtain ⟨name, -, same⟩ := List.mem_map.mp member
        exact ⟨name, same.symm⟩
  cases part with
  | anonymous head body =>
      rw [entries] at listed
      split at listed
      · cases listed
      · exact inBody listed
  | closing body => exact inBody listed
  | _ => cases listed

/-- The alias of a used trait is a single segment. -/
theorem CodePart.not_mem_alias
    {part : CodePart} {entry : String × String}
    (listed : entry ∈ part.entries) : '\\' ∉ entry.1.toList := by
  obtain ⟨name, rfl⟩ := exists_of_mem_entries listed
  rw [UsedTraits.entryOf, shortName, String.toList_ofList,
    Text.Pieces.afterLast, List.mem_reverse]
  intro inside
  have other := List.mem_takeWhile_imp inside
  exact absurd other (by decide)

theorem CodePart.resolve_after_iff (scope : Scope) (part : CodePart) :
    (∀ name, (part.after scope).resolve name = scope.resolve name) ↔
      ∀ short full, part.entries.reverse.lookup short = some full →
        scope.resolve short = full :=
  Scope.resolve_addImports_iff fun _ listed => not_mem_alias listed

end Files

/--
A file with code and anonymous classes is read as what its parts make of it.
One to one and in order, the declarations are those of the named types exactly
if in no anonymous class the keyword of a clause is taken for a name.  Used
traits of anonymous classes keep what names stand for exactly if each of their
short names already stands for the trait.  Where no code is seen in either way,
the file is read as if there was none.
-/
theorem read_fileParts
    {text : String} {parts : List FilePart} (path : Option Files.FilePath)
    (lexed : Token.read text = .ok (parts.flatMap (·.tokens)))
    (apart : separated true parts = true) :
    SourceFile.read text path =
        .ok (readDeclarations ⟨path, text⟩ {} parts) ∧
      ((readDeclarations ⟨path, text⟩ {} parts).map
            (fun d => (d.name, d.kind)) = declaredNames {} parts ↔
        ∀ part ∈ parts, part.mistaken? = none) ∧
      (∀ (scope : Scope) (part : CodePart),
        (∀ name, (part.after scope).resolve name = scope.resolve name) ↔
          ∀ short full, part.entries.reverse.lookup short = some full →
            scope.resolve short = full) ∧
      (AllUnseen {} parts →
        readDeclarations ⟨path, text⟩ {} parts =
          readDeclarations ⟨path, text⟩ {} (statements parts)) := by
  have start : IsReady true {} none := fun _ => ⟨rfl, rfl⟩
  refine ⟨?_, map_readDeclarations_iff ⟨path, text⟩ {} parts,
    CodePart.resolve_after_iff,
    readDeclarations_of_allUnseen ⟨path, text⟩ ⟨rfl, fun _ => rfl⟩⟩
  rw [SourceFile.read, lexed]
  exact readFrom_fileParts ⟨path, text⟩ {} start apart

/-- An anonymous class with an attribute and a used trait, before a class. -/
def attributedFile : String :=
  "<?php namespace App;use T\\M;$a=new #[B] class\x7buse \\T\\M;\x7d;" ++
    "class C extends M\x7b\x7d"

def attributedHead : AnonymousHead where
  creation := .plain "new"
  lead := [.attributes ⟨[⟨"B", none⟩], false⟩]
  keyword := classKeyword

/-- The used trait `\T\M`. -/
def attributedBody : AnonymousBody where
  extending := none
  implementing := none
  members :=
    { members :=
        [.traitUse [] useKeyword
          ⟨⟨[.name "\\T\\M"], by decide⟩, none⟩]
      trailing := [] }
  pieces :=
    [.traitUse
      { keyword := useKeyword
        first := { text := "\\T\\M" }
        others := []
        mark := ⟨';', by decide⟩
        complete := by decide +kernel }]
  same := rfl
  plain := by decide

def codeToken (t : Token) (code : IsCode t := by decide) : FilePart :=
  .code (.piece (.token ⟨t, code⟩))

def attributedParts : List FilePart :=
  [.namespaceStart ⟨namespaceKeyword, some { text := "App" }, false⟩,
    .imports useKeyword
      (.types (.name ⟨{ text := "T\\M" }, none⟩) []),
    codeToken (.variable "a"), codeToken (.punct '='),
    .code (.anonymous attributedHead attributedBody), codeToken (.punct ';'),
    .declaration
      { lead := []
        kind := .classType
        keyword := classKeyword
        name := "C"
        type :=
          ⟨⟨[.name "extends", .name "M"], by decide⟩, ⟨[], []⟩⟩ }]

/-- The trait has the name that is imported, so nothing changes. -/
theorem read_fileParts_attributedFile :
    ∃ declarations,
      SourceFile.read attributedFile none = .ok declarations ∧
        declarations =
          readDeclarations ⟨none, attributedFile⟩ {}
            (statements attributedParts) ∧
        declarations.map (fun d => (d.name, d.parent)) =
          [("App\\C", some "T\\M")] := by
  have lexed : Token.read attributedFile =
      .ok (attributedParts.flatMap (·.tokens)) :=
    eq_ok_of_toOption (by decide +kernel)
  obtain ⟨read, -, keeps, whole⟩ :=
    read_fileParts none lexed (by decide +kernel)
  have plain : ∀ (scope : Scope) (piece : CodePiece),
      (CodePart.piece piece).IsUnseen scope := fun _ _ => ⟨rfl, fun _ => rfl⟩
  have unseen : AllUnseen {} attributedParts := by
    refine ⟨trivial, trivial, plain _ _, plain _ _, ⟨by decide, ?_⟩, plain _ _,
      trivial, trivial⟩
    refine (keeps _ _).mpr fun short full found => ?_
    have entries : (CodePart.anonymous attributedHead
        attributedBody).entries.reverse = [("M", "T\\M")] := by
      decide +kernel
    obtain ⟨rfl, rfl⟩ : short = "M" ∧ full = "T\\M" := by
      rw [entries, List.lookup_cons] at found
      split at found
      · rename_i same
        exact ⟨eq_of_beq same, (Option.some.inj found).symm⟩
      · cases found
    decide +kernel
  exact ⟨_, read, whole unseen, by decide +kernel⟩

/--
An anonymous class with a modifier is read as a declaration, and the trait that
another one uses changes what the parent of a class is resolved to.
-/
theorem read_anonymousClasses :
    (SourceFile.read "<?php new readonly class extends Base\x7b\x7d;" none).map
        (·.map (·.name)) =
        .ok ["extends"] ∧
      (SourceFile.read
          ("<?php namespace App;new class\x7buse Other\\Base;\x7d;" ++
            "class K extends Base\x7b\x7d") none).map
        (·.map fun d => (d.name, d.parent)) =
        .ok [("App\\K", some "Other\\Base")] := by
  constructor
  · exact eq_ok_of_toOption (by decide +kernel)
  · exact eq_ok_of_toOption (by decide +kernel)

end Grammar

end BusReference.Php
