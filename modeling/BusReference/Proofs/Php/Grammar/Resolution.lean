import BusReference.Proofs.Php.Grammar.Files

/-!
# What names refer to

A file mixes starts of namespaces, imports and declarations in any order and
number.  What a name refers to depends on the pieces before it: on the namespace
that was started last, and on the imports since then, among which the last one
of an alias counts.  The main statement is that every declaration is read with
its names resolved by this rule.

It only depends on the entries of the imports.  Lists and groups of imports can
therefore be written as one import for each member.
-/

namespace BusReference.Php

/-- A declaration without the text of its file. -/
def Declaration.withoutSource (d : Declaration) : Declaration :=
  { d with source := none }

namespace Grammar

open BracketPair (parentheses)
open SourceFile (Origin opensDeclaration readFrom)

/-! ## Imports of types -/

/-- The reference to a type in a namespace that a group of imports names. -/
def Reference.under (base member : Reference) : Reference where
  text := base.text ++ "\\" ++ member.text
  named := by
    rw [String.append_assoc, plainName_append base.named]
    intro empty
    exact base.named (String.append_eq_empty_iff.mp empty).1
  unreserved := by
    intro reserved
    have plain : ∀ word ∈ reservedWords, '\\' ∉ word.toList := by
      decide
    refine plain _ reserved ?_
    have letters : (base.text ++ "\\" ++ member.text).toLower.toList =
        (base.text ++ "\\" ++ member.text).toList.map Char.toLower :=
      String.toList_map
    rw [letters]
    simp

theorem Reference.text_under (base member : Reference) :
    (base.under member).text = base.text ++ "\\" ++ member.text :=
  rfl

/-- What stands between the commas of an import of types. -/
inductive TypeImport where
  | name (imported : ImportedName)
  | group (base : Reference) (members : List ImportedName) (trailing : Bool)

namespace TypeImport

/-- The import as one that could also name functions and constants. -/
def clause : TypeImport → ImportClause
  | name i => .name i
  | group base members trailing =>
      .group base (members.map (⟨none, ·⟩)) trailing

/-- The imported names with the name of their group before them. -/
def members : TypeImport → List ImportedName
  | name i => [i]
  | group base members _ =>
      members.map fun i => { i with name := base.under i.name }

/-- The entry of an imported name that stands alone. -/
def entryOf (i : ImportedName) : String × String :=
  i.entry (plainName i.name.text)

theorem entries_clause (t : TypeImport) :
    t.clause.entries = t.members.map entryOf := by
  cases t with
  | name i => rfl
  | group base members trailing =>
      have single : ∀ i : ImportedName,
          GroupMember.entries (plainName base.text ++ "\\") ⟨none, i⟩ =
            [entryOf { i with name := base.under i.name }] := by
        intro i
        have full : plainName (base.under i.name).text =
            plainName base.text ++ "\\" ++ i.name.text := by
          rw [base.text_under, String.append_assoc,
            plainName_append base.named, String.append_assoc]
        rw [entryOf, full]
        rfl
      rw [clause, ImportClause.entries, List.flatMap_map, TypeImport.members,
        List.map_map, List.map_eq_flatMap]
      simp only [single]
      rfl

end TypeImport

/-! ## Pieces of files -/

/-- What a file consists of. -/
inductive FilePiece where
  | namespaceStart (header : NamespaceHeader)
  | imports
      (keyword : Keyword "use") (first : TypeImport)
      (others : List TypeImport)
  | otherImports
      (keyword : Keyword "use") (marker : ImportMarker)
      (content : { ts : List Token // Token.punct ';' ∉ ts })
  | declaration (declared : WrittenDeclaration)

namespace FilePiece

def tokens : FilePiece → List Token
  | namespaceStart header => header.tokens
  | imports keyword first others =>
      WrittenFile.useTokens
        (keyword, .types first.clause (others.map (·.clause)))
  | otherImports keyword marker content =>
      WrittenFile.useTokens (keyword, .marked marker content)
  | declaration d => d.tokens

/-- The namespace that a piece starts. -/
def namespace? : FilePiece → Option String
  | namespaceStart header => some header.nameText
  | _ => none

/-- The imported names of a piece by their aliases. -/
def entries : FilePiece → List (String × String)
  | imports _ first others =>
      ((first :: others).flatMap (·.members)).map TypeImport.entryOf
  | _ => []

/-- What a piece declares. -/
def declarations
    (origin : Origin) (scope : Scope) : FilePiece → List Declaration
  | declaration d => [d.declared origin scope]
  | _ => []

/-- What is in force after a piece. -/
def after (scope : Scope) (piece : FilePiece) : Scope :=
  match piece.namespace? with
  | some name => { namespaceName := name }
  | none => scope.addImports piece.entries

/-- An import of a single name. -/
def single (keyword : Keyword "use") (i : ImportedName) : FilePiece :=
  imports keyword (.name i) []

/-- Imports of types with one name each. -/
def separated : FilePiece → List FilePiece
  | imports keyword first others =>
      ((first :: others).flatMap (·.members)).map (single keyword)
  | piece => [piece]

variable (piece : FilePiece) {scope : Scope}

theorem entries_ne_empty :
    ∀ entry ∈ piece.entries, entry.2 ≠ "" := by
  intro entry member
  cases piece with
  | imports keyword first others =>
      obtain ⟨i, -, rfl⟩ := List.mem_map.mp member
      exact i.name.named
  | _ => cases member

theorem namesImports_after (imports : scope.NamesImports) :
    (piece.after scope).NamesImports := by
  rw [after]
  split
  · intro entry member
    cases member
  · exact imports.addImports piece.entries_ne_empty

theorem relative_after
    (relative : scope.namespaceName.toList.head? ≠ some '\\') :
    (piece.after scope).namespaceName.toList.head? ≠ some '\\' := by
  rw [after]
  split
  · rename_i name starts
    cases piece with
    | namespaceStart header =>
        cases starts
        exact header.relative_nameText
    | _ => cases starts
  · exact relative

theorem entries_types (first : TypeImport) (others : List TypeImport) :
    (UseDeclaration.types first.clause (others.map (·.clause))).entries =
      ((first :: others).flatMap (·.members)).map TypeImport.entryOf := by
  rw [UseDeclaration.entries, ← List.map_cons, List.flatMap_map,
    List.map_flatMap]
  simp only [TypeImport.entries_clause]

/-- The reader stops where the next piece starts. -/
theorem readFrom_tokens
    (imports : scope.NamesImports)
    (relative : scope.namespaceName.toList.head? ≠ some '\\')
    {previous : Option Token} (opens : opensDeclaration previous = true)
    (origin : Origin) (rest : List Token) :
    ∃ next, opensDeclaration next = true ∧
      readFrom origin scope {} previous (piece.tokens ++ rest) =
        (readFrom origin (piece.after scope) {} next rest).map
          (piece.declarations origin scope ++ ·) := by
  have nothing : ∀ read : Except Fault (List Declaration),
      read.map ([] ++ ·) = read := congrFun Except.map_id
  cases piece with
  | namespaceStart header =>
      refine ⟨some (.punct header.mark), ?_, ?_⟩
      · rw [NamespaceHeader.mark]
        split <;> rfl
      · exact (header.readFrom_tokens origin rest).trans (nothing _).symm
  | imports keyword first others =>
      have step := WrittenFile.readFrom_use origin scope previous
        (keyword, .types first.clause (others.map (·.clause))) rest
      rw [entries_types] at step
      exact ⟨some (.punct ';'), rfl, step.trans (nothing _).symm⟩
  | otherImports keyword marker content =>
      have step := WrittenFile.readFrom_use origin scope previous
        (keyword, .marked marker content) rest
      exact ⟨some (.punct ';'), rfl, step.trans (nothing _).symm⟩
  | declaration d =>
      refine ⟨some (.punct '\x7d'), rfl, ?_⟩
      rw [tokens, readFrom_declaration imports relative opens]
      rfl

end FilePiece

/-! ## What is in force -/

/-- The namespace that was started last. -/
def namespaceOf (before : List FilePiece) : String :=
  (before.filterMap (·.namespace?)).getLast?.getD ""

/-- The entries of the imports since then, in their order. -/
def importsOf (before : List FilePiece) : List (String × String) :=
  (before.reverse.takeWhile (·.namespace?.isNone)).reverse.flatMap
    (·.entries)

/-- What is in force after some pieces. -/
def inForce (before : List FilePiece) : Scope where
  namespaceName := namespaceOf before
  imports := (importsOf before).reverse

theorem inForce_concat (before : List FilePiece) (piece : FilePiece) :
    inForce (before ++ [piece]) = piece.after (inForce before) := by
  rw [inForce, namespaceOf, importsOf, List.filterMap_append,
    List.reverse_append, List.reverse_singleton, List.singleton_append,
    FilePiece.after]
  cases starts : piece.namespace? with
  | some name => simp [starts]
  | none => simp [starts, inForce, importsOf, namespaceOf, Scope.addImports]

theorem inForce_append (before pieces : List FilePiece) :
    inForce (before ++ pieces) =
      pieces.foldl (fun scope piece => piece.after scope) (inForce before) := by
  induction pieces generalizing before with
  | nil => rw [List.append_nil, List.foldl_nil]
  | cons piece pieces ih =>
      rw [List.foldl_cons, ← inForce_concat, ← ih, List.append_assoc,
        List.singleton_append]

/-- What every piece preserves is so in what is in force. -/
theorem inForce_preserves
    (Holds : Scope → Prop) (start : Holds {})
    (step : ∀ (scope : Scope) (piece : FilePiece),
      Holds scope → Holds (piece.after scope))
    (before : List FilePiece) : Holds (inForce before) := by
  have whole := inForce_append [] before
  rw [List.nil_append] at whole
  rw [whole]
  exact List.foldlRecOn before _ start
    fun scope holds piece _ => step scope piece holds

theorem namesImports_inForce (before : List FilePiece) :
    (inForce before).NamesImports :=
  inForce_preserves Scope.NamesImports nofun
    (fun _ piece imports => piece.namesImports_after imports) before

theorem relative_inForce (before : List FilePiece) :
    (inForce before).namespaceName.toList.head? ≠ some '\\' :=
  inForce_preserves (·.namespaceName.toList.head? ≠ some '\\') (by decide)
    (fun _ piece relative => piece.relative_after relative) before

/-! ## References -/

/-- A name that starts with a backslash. -/
def IsAbsolute (name : String) : Prop := name.toList.head? = some '\\'

instance (name : String) : Decidable (IsAbsolute name) :=
  inferInstanceAs (Decidable (_ = _))

/-- The part of a name before its first backslash. -/
def firstSegment (name : String) : String :=
  String.ofList (name.toList.takeWhile (· != '\\'))

/-- What follows the first segment, from the backslash on. -/
def laterSegments (name : String) : String :=
  String.ofList (name.toList.dropWhile (· != '\\'))

/-- The class that a name refers to after some pieces of a file. -/
inductive RefersTo (before : List FilePiece) (name : String) : String → Prop
  | absolute {full : String} (leads : name.toList = '\\' :: full.toList) :
      RefersTo before name full
  | imported {target : String} {earlier later : List (String × String)}
      (relative : ¬ IsAbsolute name)
      (known : importsOf before =
        earlier ++ (firstSegment name, target) :: later)
      (last : ∀ entry ∈ later, entry.1 ≠ firstSegment name) :
      RefersTo before name (target ++ laterSegments name)
  | inNamespace
      (relative : ¬ IsAbsolute name)
      (unknown : ∀ entry ∈ importsOf before, entry.1 ≠ firstSegment name)
      (named : namespaceOf before ≠ "") :
      RefersTo before name (namespaceOf before ++ "\\" ++ name)
  | inGlobal
      (relative : ¬ IsAbsolute name)
      (unknown : ∀ entry ∈ importsOf before, entry.1 ≠ firstSegment name)
      (global : namespaceOf before = "") :
      RefersTo before name name

/-- The type that a name refers to: types of the language have small letters. -/
inductive RefersToType (before : List FilePiece) (name : String) :
    String → Prop
  | builtin (listed : name.toLower ∈ Scope.builtinTypes) :
      RefersToType before name name.toLower
  | declared {full : String}
      (notListed : name.toLower ∉ Scope.builtinTypes)
      (refers : RefersTo before name full) :
      RefersToType before name full

section References

variable {before : List FilePiece} {name full : String}

theorem resolve_of_relative
    (scope : Scope) (relative : ¬ IsAbsolute name) :
    scope.resolve name =
      match scope.imports.lookup (firstSegment name) with
      | some target => target ++ laterSegments name
      | none => scope.qualify name := by
  have dropped : ∀ cs : List Char,
      cs.drop (cs.takeWhile (· != '\\')).length =
        cs.dropWhile (· != '\\') := by
    intro cs
    have whole : cs.takeWhile (· != '\\') ++ cs.dropWhile (· != '\\') = cs :=
      List.takeWhile_append_dropWhile
    calc cs.drop (cs.takeWhile (· != '\\')).length
      _ = (cs.takeWhile (· != '\\') ++ cs.dropWhile (· != '\\')).drop
            (cs.takeWhile (· != '\\')).length := by rw [whole]
      _ = cs.dropWhile (· != '\\') := List.drop_left
  rw [Scope.resolve]
  split
  · rename_i cs leads
    exact absurd (by rw [IsAbsolute, leads]; rfl) relative
  · rw [laterSegments, ← dropped]
    rfl

theorem resolve_of_absolute
    (scope : Scope) (leads : name.toList = '\\' :: full.toList) :
    scope.resolve name = full := by
  rw [Scope.resolve, leads]
  exact String.ofList_toList

/-- That no entry has an alias does not depend on the order of the entries. -/
theorem forall_reverse_bne_iff
    {entries : List (String × String)} {short : String} :
    (∀ entry ∈ entries.reverse, (short != entry.1) = true) ↔
      ∀ entry ∈ entries, entry.1 ≠ short := by
  simp only [List.mem_reverse, bne_iff_ne, ne_comm]

/-- The import of an alias that is found is the one that was declared last. -/
theorem lookup_inForce_eq_some_iff {short target : String} :
    (inForce before).imports.lookup short = some target ↔
      ∃ earlier later, importsOf before =
          earlier ++ (short, target) :: later ∧
        ∀ entry ∈ later, entry.1 ≠ short := by
  rw [inForce, List.lookup_eq_some_iff]
  constructor
  · rintro ⟨newer, older, entries, fresh⟩
    refine ⟨older.reverse, newer.reverse, ?_,
      forall_reverse_bne_iff.mp (by rwa [List.reverse_reverse])⟩
    rw [List.reverse_eq_iff.mp entries]
    simp
  · rintro ⟨earlier, later, entries, last⟩
    refine ⟨later.reverse, earlier.reverse, ?_,
      forall_reverse_bne_iff.mpr last⟩
    rw [entries]
    simp

theorem lookup_inForce_eq_none_iff {short : String} :
    (inForce before).imports.lookup short = none ↔
      ∀ entry ∈ importsOf before, entry.1 ≠ short := by
  rw [inForce, List.lookup_eq_none_iff]
  exact forall_reverse_bne_iff

/-- What a name is resolved to is what it refers to. -/
theorem refersTo_resolve (before : List FilePiece) (name : String) :
    RefersTo before name ((inForce before).resolve name) := by
  by_cases absolute : IsAbsolute name
  · obtain ⟨cs, leads⟩ := List.head?_eq_some_iff.mp absolute
    have named : name.toList = '\\' :: (String.ofList cs).toList := by
      rw [leads, String.toList_ofList]
    rw [resolve_of_absolute _ named]
    exact .absolute named
  · rw [resolve_of_relative _ absolute]
    cases found : (inForce before).imports.lookup (firstSegment name) with
    | some target =>
        obtain ⟨earlier, later, known, last⟩ :=
          lookup_inForce_eq_some_iff.mp found
        exact .imported absolute known last
    | none =>
        have unknown := lookup_inForce_eq_none_iff.mp found
        dsimp only
        rw [Scope.qualify]
        split
        · rename_i global
          exact .inGlobal absolute unknown global
        · rename_i named
          exact .inNamespace absolute unknown named

/-- A name refers to one class. -/
theorem RefersTo.resolve_eq (refers : RefersTo before name full) :
    (inForce before).resolve name = full := by
  cases refers with
  | absolute leads => exact resolve_of_absolute _ leads
  | imported relative known last =>
      rw [resolve_of_relative _ relative,
        lookup_inForce_eq_some_iff.mpr ⟨_, _, known, last⟩]
  | inNamespace relative unknown named =>
      rw [resolve_of_relative _ relative,
        lookup_inForce_eq_none_iff.mpr unknown]
      exact if_neg named
  | inGlobal relative unknown global =>
      rw [resolve_of_relative _ relative,
        lookup_inForce_eq_none_iff.mpr unknown]
      exact if_pos global

theorem resolve_eq_iff :
    (inForce before).resolve name = full ↔ RefersTo before name full := by
  refine ⟨?_, RefersTo.resolve_eq⟩
  rintro rfl
  exact refersTo_resolve before name

theorem resolveType_eq_iff :
    (inForce before).resolveType name = full ↔
      RefersToType before name full := by
  rw [Scope.resolveType]
  constructor
  · rintro rfl
    split
    · rename_i listed
      exact .builtin (by simpa using listed)
    · rename_i notListed
      exact .declared (by simpa using notListed)
        (refersTo_resolve before name)
  · intro refers
    cases refers with
    | builtin listed => exact if_pos (by simpa using listed)
    | declared notListed refers =>
        rw [if_neg (by simpa using notListed), refers.resolve_eq]

end References

/-! ## Declarations of a file -/

/-- What pieces declare, each in what is in force there. -/
def declarationsAfter (origin : Origin) :
    List FilePiece → List FilePiece → List Declaration
  | _, [] => []
  | before, piece :: pieces =>
      piece.declarations origin (inForce before) ++
        declarationsAfter origin (before ++ [piece]) pieces

/-- Reading pieces gives what they declare, in their order. -/
theorem readFrom_filePieces
    (origin : Origin) (before pieces : List FilePiece)
    {previous : Option Token} (opens : opensDeclaration previous = true) :
    readFrom origin (inForce before) {} previous
        (pieces.flatMap (·.tokens)) =
      .ok (declarationsAfter origin before pieces) := by
  induction pieces generalizing before previous with
  | nil =>
      rw [List.flatMap_nil, readFrom]
      rfl
  | cons piece pieces ih =>
      obtain ⟨next, opensNext, step⟩ := piece.readFrom_tokens
        (namesImports_inForce before) (relative_inForce before) opens origin
        (pieces.flatMap (·.tokens))
      rw [List.flatMap_cons, step, ← inForce_concat, ih _ opensNext]
      rfl

/-! ## Imports of one name each -/

section Separated

variable {origin : Origin} {before : List FilePiece}

theorem declarationsAfter_append (first second : List FilePiece) :
    declarationsAfter origin before (first ++ second) =
      declarationsAfter origin before first ++
        declarationsAfter origin (before ++ first) second := by
  induction first generalizing before with
  | nil => simp [declarationsAfter]
  | cons piece first ih =>
      rw [List.cons_append, declarationsAfter, declarationsAfter, ih]
      simp

theorem declarationsAfter_singles
    (keyword : Keyword "use") (members : List ImportedName) :
    declarationsAfter origin before (members.map (FilePiece.single keyword)) =
      [] := by
  induction members generalizing before with
  | nil => rfl
  | cons i members ih =>
      rw [List.map_cons, declarationsAfter, ih]
      rfl

theorem inForce_singles
    (keyword : Keyword "use") (members : List ImportedName) :
    inForce (before ++ members.map (FilePiece.single keyword)) =
      (inForce before).addImports (members.map TypeImport.entryOf) := by
  induction members generalizing before with
  | nil => simp [Scope.addImports]
  | cons i members ih =>
      have step : inForce (before ++ [FilePiece.single keyword i]) =
          (inForce before).addImport (TypeImport.entryOf i).1
            (TypeImport.entryOf i).2 := inForce_concat _ _
      rw [List.map_cons, List.append_cons, ih, step, List.map_cons,
        Scope.addImports_cons]

theorem declarationsAfter_separated (piece : FilePiece) :
    declarationsAfter origin before piece.separated =
      piece.declarations origin (inForce before) := by
  cases piece with
  | imports keyword first others =>
      exact declarationsAfter_singles keyword _
  | _ => exact List.append_nil _

theorem inForce_separated (piece : FilePiece) :
    inForce (before ++ piece.separated) = piece.after (inForce before) := by
  cases piece with
  | imports keyword first others =>
      exact inForce_singles keyword _
  | _ => exact inForce_concat before _

end Separated

/-- With one import for each name the same is declared. -/
theorem declarationsAfter_flatMap_separated
    (path : Option Files.FilePath) (source other : String)
    {before separated : List FilePiece}
    (same : inForce separated = inForce before) (pieces : List FilePiece) :
    (declarationsAfter ⟨path, other⟩ separated
        (pieces.flatMap (·.separated))).map Declaration.withoutSource =
      (declarationsAfter ⟨path, source⟩ before pieces).map
        Declaration.withoutSource := by
  induction pieces generalizing before separated with
  | nil => rfl
  | cons piece pieces ih =>
      have own : (piece.declarations ⟨path, other⟩ (inForce before)).map
          Declaration.withoutSource =
            (piece.declarations ⟨path, source⟩ (inForce before)).map
              Declaration.withoutSource := by
        cases piece <;> rfl
      have later : inForce (separated ++ piece.separated) =
          inForce (before ++ [piece]) := by
        rw [inForce_separated, inForce_concat, same]
      rw [List.flatMap_cons, declarationsAfter_append,
        declarationsAfter_separated, declarationsAfter, List.map_append,
        List.map_append, ih later, same, own]

/-! ## Reading a file -/

/-- The tokens of a list of parameters, as they stand in a member. -/
def ParameterList.nested (list : ParameterList) : Nested [parentheses] :=
  ⟨list.tokens, list.balanced_tokens.parentheses_of_all⟩

/-- A method is declared with the meanings of its parameters. -/
theorem declared_parameterList
    {scope : Scope} (imports : scope.NamesImports)
    (lead : List MemberPiece) (keyword : Keyword "function")
    (method : WrittenMethod) (list : ParameterList) (doc : Option String) :
    (WrittenMember.method lead keyword method list.nested).declared scope
        doc =
      [{ name := method.name
         doc := docAfter doc lead
         parameters := list.parameters.map (·.meaning scope)
         returnType := method.returnType.map (·.text scope) }] := by
  rw [WrittenMember.declared, ParameterList.nested,
    list.readParameters_tokens imports]

/--
A file of starts of namespaces, imports and declarations is read as what its
declarations declare, with all names resolved by what is in force before them.
There a name is resolved to what it refers to, and the parameters of methods
have their meanings.  The file with one import for each imported name is read as
the same, but for the text of the file.
-/
theorem read_filePieces
    {source : String} {pieces : List FilePiece} (path : Option Files.FilePath)
    (lexed : Token.read source = .ok (pieces.flatMap (·.tokens))) :
    SourceFile.read source path =
        .ok (declarationsAfter ⟨path, source⟩ [] pieces) ∧
      (∀ (before : List FilePiece) (name full : String),
        ((inForce before).resolve name = full ↔
          RefersTo before name full) ∧
        ((inForce before).resolveType name = full ↔
          RefersToType before name full)) ∧
      (∀ (before : List FilePiece) (lead : List MemberPiece)
          (keyword : Keyword "function") (method : WrittenMethod)
          (list : ParameterList) (doc : Option String),
        (WrittenMember.method lead keyword method list.nested).declared
            (inForce before) doc =
          [{ name := method.name
             doc := docAfter doc lead
             parameters :=
               list.parameters.map (·.meaning (inForce before))
             returnType :=
               method.returnType.map (·.text (inForce before)) }]) ∧
      ∀ other : String,
        Token.read other =
            .ok ((pieces.flatMap (·.separated)).flatMap (·.tokens)) →
          ∃ declarations, SourceFile.read other path = .ok declarations ∧
            declarations.map Declaration.withoutSource =
              (declarationsAfter ⟨path, source⟩ [] pieces).map
                Declaration.withoutSource := by
  have readAs : ∀ {text : String} {written : List FilePiece},
      Token.read text = .ok (written.flatMap (·.tokens)) →
        SourceFile.read text path =
          .ok (declarationsAfter ⟨path, text⟩ [] written) := by
    intro text written tokens
    rw [SourceFile.read, tokens]
    exact readFrom_filePieces ⟨path, text⟩ [] written rfl
  refine ⟨readAs lexed, fun before name full => ⟨resolve_eq_iff,
    resolveType_eq_iff⟩, fun before => declared_parameterList
      (namesImports_inForce before), ?_⟩
  intro other tokens
  exact ⟨_, readAs tokens,
    declarationsAfter_flatMap_separated path source other rfl pieces⟩

/-- A reading that can be evaluated to a result. -/
theorem eq_ok_of_toOption
    {ε α : Type} {read : Except ε α} {result : α}
    (done : read.toOption = some result) : read = .ok result := by
  cases read with
  | error fault => cases done
  | ok found => exact congrArg Except.ok (Option.some.inj done)

/-- A keyword in small letters. -/
def Keyword.plain
    (word : String) (small : (word.toLower == word) = true := by
      decide +kernel) : Keyword word :=
  ⟨word, by simpa using small⟩

/-! Keywords of files that are written out. -/

def namespaceKeyword : Keyword "namespace" := .plain "namespace"

def useKeyword : Keyword "use" := .plain "use"

def classKeyword : Keyword "class" := .plain "class"

def functionKeyword : Keyword "function" := .plain "function"

/-- A file with two namespaces, in each of which a class extends `M`. -/
def twoNamespaces : String :=
  "<?php namespace A;use P\\\x7bM,C as T\x7d;use const N;" ++
    "class K extends M\x7bfunction f(T\\L $l):INT\x7b\x7d\x7d" ++
    "namespace B;use Q as M;class K extends M\x7b\x7d"

/-- The same with one import for each name. -/
def twoNamespacesSeparated : String :=
  "<?php namespace A;use P\\M;use P\\C as T;use const N;" ++
    "class K extends M\x7bfunction f(T\\L $l):INT\x7b\x7d\x7d" ++
    "namespace B;use Q as M;class K extends M\x7b\x7d"

/-- The class `K` that extends `M`. -/
def classExtending (members : List WrittenMember) : WrittenDeclaration where
  lead := []
  kind := .classType
  keyword := .plain "class"
  name := { text := "K" }
  backing := none
  extending := some ⟨.plain "extends", [{ text := "M" }]⟩
  implementing := none
  members

def methodOfClass : WrittenMember :=
  .method [] (.plain "function")
    { byReference := false
      name := "f"
      returnType := some ⟨false, .name { text := "INT" }, []⟩
      body := some ⟨[], .nil⟩ }
    (ParameterList.nested
      { parameters :=
          [{ attributes := []
             modifiers := []
             type := some ⟨false, .name { text := "T\\L" }, []⟩
             byReference := false
             variadic := false
             name := "l"
             initializer := none }]
        trailing := false })

def namespacePieces : List FilePiece :=
  [.namespaceStart ⟨.plain "namespace", some { text := "A" }, false⟩,
    .imports (.plain "use")
      (.group { text := "P" }
        [⟨{ text := "M" }, none⟩,
          ⟨{ text := "C" }, some (.plain "as", "T")⟩] false)
      [],
    .otherImports (.plain "use") ⟨"const", by decide +kernel⟩
      ⟨[.name "N"], by decide⟩,
    .declaration (classExtending [methodOfClass]),
    .namespaceStart ⟨.plain "namespace", some { text := "B" }, false⟩,
    .imports (.plain "use")
      (.name ⟨{ text := "Q" }, some (.plain "as", "M")⟩) [],
    .declaration (classExtending [])]

/-- In both namespaces `M` is resolved by their own imports. -/
theorem read_filePieces_twoNamespaces :
    ∃ declarations others,
      SourceFile.read twoNamespaces none = .ok declarations ∧
      declarations.map (fun d => (d.name, d.parent)) =
        [("A\\K", some "P\\M"), ("B\\K", some "Q")] ∧
      declarations.flatMap (·.methods) =
        [{ name := "f"
           parameters := [{ name := "l", declaredType := some "P\\C\\L" }]
           returnType := some "int" }] ∧
      SourceFile.read twoNamespacesSeparated none = .ok others ∧
      others.map Declaration.withoutSource =
        declarations.map Declaration.withoutSource := by
  have lexed : Token.read twoNamespaces =
      .ok (namespacePieces.flatMap (·.tokens)) :=
    eq_ok_of_toOption (by decide +kernel)
  have lexedSeparated : Token.read twoNamespacesSeparated =
      .ok ((namespacePieces.flatMap (·.separated)).flatMap (·.tokens)) :=
    eq_ok_of_toOption (by decide +kernel)
  obtain ⟨read, -, -, separated⟩ := read_filePieces none lexed
  obtain ⟨others, readOthers, same⟩ :=
    separated twoNamespacesSeparated lexedSeparated
  refine ⟨_, others, read, ?_, ?_, readOthers, same⟩
  · decide +kernel
  · decide +kernel

end Grammar

end BusReference.Php
