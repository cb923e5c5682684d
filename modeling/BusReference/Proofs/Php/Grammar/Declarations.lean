import BusReference.Php.SourceFile
import BusReference.Proofs.Php.Grammar.Members

/-!
# Declarations as they are written

A written declaration has comments, attributes and modifiers before its
keyword, a header with the names of other types, and a body.  The reader of a
file collects what stands before the keyword, takes up the names of the header
in the order of their clauses, and leaves the file right after the body.
-/

namespace BusReference.Php

/-- A declaration of whose methods only the outlines are told. -/
def Declaration.outline (d : Declaration) : Declaration :=
  { d with methods := d.methods.map Method.outline }

namespace Grammar

open SourceFile
  (Clause Heritage Origin Pending readDeclaration readHeader)

/-! ## Groups of attributes -/

/-- A written attribute, perhaps with arguments. -/
structure WrittenAttribute where
  name : String
  arguments : Option (Nested BracketPair.all)

def WrittenAttribute.argumentTokens (a : WrittenAttribute) : List Token :=
  match a.arguments with
  | some inner => .punct '(' :: (inner.1 ++ [.punct ')'])
  | none => []

def WrittenAttribute.tokens (a : WrittenAttribute) : List Token :=
  .name a.name :: a.argumentTokens

/-- Attributes in one pair of brackets. -/
structure AttributeGroup where
  attributes : List WrittenAttribute
  trailing : Bool

namespace AttributeGroup

/-- The tokens of the group after its opening. -/
def innerTokens (g : AttributeGroup) : List Token :=
  commaList (g.attributes.map (·.tokens)) ++
    (optionalToken g.trailing (.punct ',') ++ [.punct ']'])

def names (scope : Scope) (g : AttributeGroup) : List String :=
  g.attributes.map (scope.resolve ·.name)

variable {scope : Scope} (rest : List Token)

/-- The names in the arguments of an attribute are none of attributes. -/
theorem readGroup_attribute (a : WrittenAttribute) :
    Attribute.readGroup scope 0 0 true (a.tokens ++ rest) =
      (scope.resolve a.name ::
          (Attribute.readGroup scope 0 0 false rest).1,
        (Attribute.readGroup scope 0 0 false rest).2) := by
  have passed : Attribute.readGroup scope 0 0 false
        (a.argumentTokens ++ rest) =
      Attribute.readGroup scope 0 0 false rest := by
    rw [WrittenAttribute.argumentTokens]
    cases a.arguments with
    | none => rfl
    | some inner =>
        have inside : ∀ us : List Token,
            Attribute.readGroup scope 0 1 false (inner.1 ++ us) =
              Attribute.readGroup scope 0 1 false us :=
          Attribute.readGroup_append inner.2 (Or.inr Nat.one_ne_zero)
        simp [Attribute.readGroup, inside]
  rw [WrittenAttribute.tokens, List.cons_append, Attribute.readGroup,
    if_pos ⟨rfl, rfl, rfl⟩, passed]

theorem readGroup_innerTokens (g : AttributeGroup) :
    Attribute.readGroup scope 0 0 true (g.innerTokens ++ rest) =
      (g.names scope, rest) := by
  have closed : ∀ expectsName : Bool,
      Attribute.readGroup scope 0 0 expectsName
          (optionalToken g.trailing (.punct ',') ++ .punct ']' :: rest) =
        ([], rest) := by
    intro expectsName
    cases g.trailing <;> simp [optionalToken, Attribute.readGroup]
  have separated : ∀ us : List Token,
      Attribute.readGroup scope 0 0 false (.punct ',' :: us) =
        Attribute.readGroup scope 0 0 true us := by
    intro us
    simp [Attribute.readGroup]
  rw [innerTokens, names, List.append_assoc, List.append_assoc,
    List.singleton_append]
  induction g.attributes with
  | nil => exact closed true
  | cons a as ih =>
      cases as with
      | nil =>
          rw [List.map_singleton, commaList_singleton, readGroup_attribute,
            closed]
          rfl
      | cons second as =>
          rw [List.map_cons, List.map_cons, commaList_cons_cons,
            List.append_assoc, List.cons_append, readGroup_attribute,
            separated, ← List.map_cons, ih]
          rfl

end AttributeGroup

/-! ## What stands before a keyword -/

/-- A comment, a group of attributes or a modifier before a declaration. -/
inductive LeadPiece where
  | doc (text : String)
  | attributes (group : AttributeGroup)
  | modifier
      (word : { text : String //
        text.toLower ∈ ["abstract", "final", "readonly"] })

namespace LeadPiece

def tokens : LeadPiece → List Token
  | doc text => [.docComment text]
  | attributes group => .attributeOpen :: group.innerTokens
  | modifier word => [.name word.1]

def doc? : LeadPiece → Option String
  | doc text => some text
  | _ => none

def attributeNames (scope : Scope) : LeadPiece → List String
  | attributes group => group.names scope
  | _ => []

end LeadPiece

/-! ## Headers -/

section Heritage

variable {kind : TypeKind}

/-- The types that a header names in one of its clauses. -/
def addNames
    (kind : TypeKind) (clause : Clause) (names : List String)
    (heritage : Heritage) : Heritage :=
  names.foldl (fun h name => h.add kind clause name) heritage

/-- A clause that adds one interface for a name adds those for all its names. -/
theorem addNames_interfaces
    {clause : Clause}
    (adds : ∀ name (heritage : Heritage), heritage.add kind clause name =
      { heritage with interfaces := heritage.interfaces ++ [name] })
    (names : List String) (heritage : Heritage) :
    addNames kind clause names heritage =
      { heritage with interfaces := heritage.interfaces ++ names } := by
  induction names generalizing heritage with
  | nil => simp [addNames]
  | cons name names ih =>
      rw [addNames, List.foldl_cons, ← addNames, ih, adds]
      simp

theorem addNames_implementing (names : List String) (heritage : Heritage) :
    addNames kind .implementing names heritage =
      { heritage with interfaces := heritage.interfaces ++ names } :=
  addNames_interfaces (fun _ _ => rfl) names heritage

theorem addNames_extending_interface
    (names : List String) (heritage : Heritage) :
    addNames .interfaceType .extending names heritage =
      { heritage with interfaces := heritage.interfaces ++ names } :=
  addNames_interfaces (fun _ _ => rfl) names heritage

/-- A class extends one class, so the last name counts. -/
theorem addNames_extending
    (noInterface : kind ≠ .interfaceType)
    (names : List String) (heritage : Heritage) :
    addNames kind .extending names heritage =
      { heritage with parent := names.getLast?.or heritage.parent } := by
  induction names generalizing heritage with
  | nil => rfl
  | cons name names ih =>
      have added : heritage.add kind .extending name =
          { heritage with parent := some name } := by
        cases kind with
        | interfaceType => exact absurd rfl noInterface
        | _ => rfl
      rw [addNames, List.foldl_cons, ← addNames, ih, added,
        getLast?_cons_or]

/-- A keyword and the names of its clause. -/
structure NameClause (word : String) where
  keyword : Keyword word
  names : List Reference

def NameClause.tokens {word : String} (c : NameClause word) : List Token :=
  .name c.keyword.1 :: nameList ',' c.names

variable
    {scope : Scope} {owner : String} {clause : Clause} {heritage : Heritage}
    (rest : List Token)

theorem readHeader_name (n : Reference) :
    readHeader scope kind owner clause heritage (.name n.text :: rest) =
      readHeader scope kind owner clause
        (addNames kind clause [scope.resolve n.text] heritage) rest := by
  rw [readHeader, n.not_isKeyword (by decide), n.not_isKeyword (by decide)]
  rfl

theorem readHeader_nameList (names : List Reference) :
    readHeader scope kind owner clause heritage
        (nameList ',' names ++ rest) =
      readHeader scope kind owner clause
        (addNames kind clause (names.map (scope.resolve ·.text)) heritage)
        rest := by
  induction names generalizing heritage with
  | nil => rfl
  | cons n names ih =>
      cases names with
      | nil => exact readHeader_name rest n
      | cons second names =>
          rw [nameList_cons_cons, List.cons_append, List.cons_append,
            readHeader_name, readHeader, if_neg (by decide), ih]
          rfl

/-- Perhaps a clause, as it is written. -/
def clauseTokens {word : String} (c : Option (NameClause word)) :
    List Token :=
  (c.map (·.tokens)).getD []

/-- The qualified names of a clause; without a clause there are none. -/
def clauseNames
    (scope : Scope) {word : String} (c : Option (NameClause word)) :
    List String :=
  (c.map fun c => c.names.map (scope.resolve ·.text)).getD []

theorem readHeader_clauseTokens
    {word : String} {target : Clause}
    (opened : ∀ (keyword : Keyword word) (ts : List Token),
      readHeader scope kind owner clause heritage (.name keyword.1 :: ts) =
        readHeader scope kind owner target heritage ts)
    (c : Option (NameClause word)) :
    readHeader scope kind owner clause heritage (clauseTokens c ++ rest) =
      readHeader scope kind owner (if c.isSome then target else clause)
        (addNames kind target (clauseNames scope c) heritage) rest := by
  cases c with
  | none => rfl
  | some c =>
      rw [clauseTokens, Option.map_some, Option.getD_some, NameClause.tokens,
        List.cons_append, opened, readHeader_nameList]
      rfl

theorem readHeader_extends (keyword : Keyword "extends") :
    readHeader scope kind owner clause heritage (.name keyword.1 :: rest) =
      readHeader scope kind owner .extending heritage rest := by
  rw [readHeader, if_pos keyword.isKeyword]

theorem readHeader_implements (keyword : Keyword "implements") :
    readHeader scope kind owner clause heritage (.name keyword.1 :: rest) =
      readHeader scope kind owner .implementing heritage rest := by
  have notExtends :
      ¬ Token.isKeyword "extends" (.name keyword.1) = true := by
    simp [Token.isKeyword, keyword.2]
  rw [readHeader, if_neg notExtends, if_pos keyword.isKeyword]

end Heritage

/-! ## Declarations -/

/-- A name that is declared; it has no backslash in front. -/
structure DeclaredName where
  text : String
  relative : text.toList.head? ≠ some '\\' := by decide +kernel

theorem plainName_of_relative
    {name : String} (relative : name.toList.head? ≠ some '\\') :
    plainName name = name := by
  have kept : name.toList.dropWhile (· == '\\') = name.toList := by
    cases leading : name.toList with
    | nil => rfl
    | cons c cs =>
        rw [leading, List.head?_cons] at relative
        rw [List.dropWhile_cons_of_neg]
        simpa using relative
  rw [plainName, Text.Pieces.dropLeading, kept, String.ofList_toList]

theorem qualify_relative
    {scope : Scope} {name : String}
    (inNamespace : scope.namespaceName.toList.head? ≠ some '\\')
    (relative : name.toList.head? ≠ some '\\') :
    (scope.qualify name).toList.head? ≠ some '\\' := by
  rw [Scope.qualify]
  split
  · exact relative
  · rename_i named
    rw [String.toList_append, String.toList_append, List.append_assoc]
    cases leading : scope.namespaceName.toList with
    | nil => exact absurd (String.toList_eq_nil_iff.mp leading) named
    | cons c cs =>
        rwa [leading, List.head?_cons] at inNamespace

/-- A written declaration of a type. -/
structure WrittenDeclaration where
  lead : List LeadPiece
  kind : TypeKind
  keyword : Keyword kind.keyword
  name : DeclaredName
  backing : Option Reference
  extending : Option (NameClause "extends")
  implementing : Option (NameClause "implements")
  members : List WrittenMember

namespace WrittenDeclaration

/-- The type of the values of an enumeration. -/
def backingTokens (d : WrittenDeclaration) : List Token :=
  match d.backing with
  | some name => [.punct ':', .name name.text]
  | none => []

def headerTokens (d : WrittenDeclaration) : List Token :=
  d.backingTokens ++
    (clauseTokens d.extending ++ clauseTokens d.implementing)

def bodyTokens (d : WrittenDeclaration) : List Token :=
  d.members.flatMap (·.tokens) ++ [.punct '\x7d']

/-- The tokens of the declaration after its name. -/
def laterTokens (d : WrittenDeclaration) : List Token :=
  d.headerTokens ++ .punct '\x7b' :: d.bodyTokens

/-- The keyword, the name and what follows them. -/
def ownTokens (d : WrittenDeclaration) : List Token :=
  .name d.keyword.1 :: .name d.name.text :: d.laterTokens

def tokens (d : WrittenDeclaration) : List Token :=
  d.lead.flatMap (·.tokens) ++ d.ownTokens

/-- A class extends the class that its clause names last. -/
def parent (scope : Scope) (d : WrittenDeclaration) : Option String :=
  if d.kind = .interfaceType then none
  else (clauseNames scope d.extending).getLast?

/-- An interface extends other interfaces. -/
def interfaces (scope : Scope) (d : WrittenDeclaration) : List String :=
  (if d.kind = .interfaceType then clauseNames scope d.extending else []) ++
    clauseNames scope d.implementing

/-- What a written declaration declares, without the details of methods. -/
def outline
    (origin : Origin) (scope : Scope) (d : WrittenDeclaration) :
    Declaration where
  name := scope.qualify d.name.text
  kind := d.kind
  doc := (d.lead.filterMap (·.doc?)).getLast?
  attributes := d.lead.flatMap (·.attributeNames scope)
  parent := d.parent scope
  interfaces := d.interfaces scope
  traits := d.members.flatMap (·.traits scope)
  methods := d.members.flatMap (·.methods scope)
  path := origin.path
  source := some origin.source

/-- What a written declaration declares. -/
def declared
    (origin : Origin) (scope : Scope) (d : WrittenDeclaration) :
    Declaration :=
  { d.outline origin scope with
    methods := declaredMethods scope none d.members }

variable (d : WrittenDeclaration) {scope : Scope} {owner : String}

theorem outline_declared (origin : Origin) :
    (d.declared origin scope).outline = d.outline origin scope := by
  rw [Declaration.outline, declared]
  dsimp only
  rw [outline_declaredMethods]
  rfl

theorem readHeader_backingTokens
    {heritage : Heritage} (rest : List Token) :
    readHeader scope d.kind owner .none heritage (d.backingTokens ++ rest) =
      readHeader scope d.kind owner .none heritage rest := by
  rw [backingTokens]
  cases d.backing with
  | none => rfl
  | some name =>
      rw [List.cons_append, readHeader, if_neg (by decide),
        List.singleton_append, readHeader_name]
      rfl

theorem readHeader_headerTokens (rest : List Token) :
    readHeader scope d.kind owner .none {}
        (d.headerTokens ++ .punct '\x7b' :: rest) =
      .ok ({ parent := d.parent scope
             interfaces := d.interfaces scope }, rest) := by
  have heritage :
      addNames d.kind .implementing (clauseNames scope d.implementing)
          (addNames d.kind .extending (clauseNames scope d.extending) {}) =
        { parent := d.parent scope, interfaces := d.interfaces scope } := by
    rw [addNames_implementing, parent, interfaces]
    by_cases isInterface : d.kind = .interfaceType
    · rw [isInterface, addNames_extending_interface, if_pos rfl, if_pos rfl]
      rfl
    · rw [addNames_extending isInterface, if_neg isInterface,
        if_neg isInterface, Option.or_none]
  rw [headerTokens, List.append_assoc, List.append_assoc,
    readHeader_backingTokens,
    readHeader_clauseTokens _ fun keyword ts => readHeader_extends ts keyword,
    readHeader_clauseTokens _
      fun keyword ts => readHeader_implements ts keyword,
    heritage, readHeader, if_pos rfl]

/-- The reader of a declaration stops right after its body. -/
theorem readDeclaration_laterTokens
    (imports : scope.NamesImports)
    (relative : scope.namespaceName.toList.head? ≠ some '\\')
    (origin : Origin) (pending : Pending) (rest : List Token) :
    readDeclaration origin scope pending d.kind d.name.text
        (d.laterTokens ++ rest) =
      .ok ({ d.declared origin scope with
             doc := pending.doc
             attributes := pending.attributes }, rest) := by
  have named : (Declaration.named (scope.qualify d.name.text) d.kind).name =
      scope.qualify d.name.text :=
    plainName_of_relative (qualify_relative relative d.name.relative)
  have body : Body.read scope (scope.qualify d.name.text)
      (d.bodyTokens ++ rest) =
        .ok ({ methods := declaredMethods scope none d.members
               traits := d.members.flatMap (·.traits scope) }, rest) := by
    rw [Body.read, bodyTokens, List.append_assoc]
    exact readFrom_members _ imports d.members none rest
  rw [laterTokens, List.append_assoc, List.cons_append, readDeclaration]
  dsimp only
  rw [named, d.readHeader_headerTokens]
  dsimp only
  rw [body]
  rfl

end WrittenDeclaration

end Grammar

end BusReference.Php
