import Mathlib.Data.List.Basic
import BusReference.Proofs.Definition.Reading
import BusReference.Proofs.DocComment.Imports
import BusReference.Proofs.Php.EndScope

/-!
# Documented and declared return types

The type in a `@return` tag is looked up in the raw text of the file of the
handler; a declared type is looked up among the imports that the reader of the
file holds.  Both give the same name if the first statement that the raw text
seems to have for the alias is one for the name that the reader holds.  They
differ where the reader follows an alias, a group or a list of imports, or where
a comment looks like a statement.
-/

namespace BusReference.Php

open Lexeme.Reading (isNameChar)

/-- A name of one segment, as it stands for a type. -/
structure IsIdentifier (name : String) : Prop where
  named : name ≠ ""
  letters : ∀ c ∈ name.toList, isNameChar c = true

theorem IsIdentifier.not_mem
    {name : String} (identifier : IsIdentifier name)
    {c : Char} (other : isNameChar c = false) : c ∉ name.toList := by
  intro inside
  rw [identifier.letters c inside] at other
  cases other

/-! ## Declared types -/

/-- An alias that is held stands for the whole imported name. -/
theorem Scope.resolveType_of_lookup
    {scope : Scope} {name full : String}
    (held : scope.imports.lookup name = some full)
    (identifier : IsIdentifier name)
    (noBuiltin : name.toLower ∉ builtinTypes) :
    scope.resolveType name = full := by
  have noBackslash : '\\' ∉ name.toList := identifier.not_mem (by decide)
  have segment : name.toList.takeWhile (· != '\\') = name.toList := by
    rw [List.takeWhile_eq_self_iff]
    intro c inside
    rw [bne_iff_ne]
    rintro rfl
    exact noBackslash inside
  rw [resolveType, if_neg (by simpa using noBuiltin), resolve]
  split
  · rename_i absolute starts
    rw [starts] at noBackslash
    exact absurd List.mem_cons_self noBackslash
  · dsimp only
    rw [segment, String.ofList_toList, held, List.drop_length]
    exact String.append_empty

/-- A return type of a single name is the resolved name. -/
theorem Body.readReturnType_name
    {scope : Scope} {name : String} {t : Token}
    (filled : scope.resolveType name ≠ "") (ends : endsType t = true)
    (rest : List Token) :
    readReturnType scope (.punct ':' :: .name name :: t :: rest) =
      (some (scope.resolveType name), t :: rest) := by
  have goesOn : endsType (.name name) = false := rfl
  have members : Signature.typeMembers scope [.name name] =
      [scope.resolveType name] := by
    simp [Signature.typeMembers, Text.Pieces.splitOn, Signature.memberText,
      filled]
  have type : (Signature.readType scope [.name name]).map (·.1) =
      some (scope.resolveType name) := by
    rw [Signature.readType, members]
    by_cases isNull : scope.resolveType name = "null"
    · simp [isNull]
    · simp [isNull]
  rw [readReturnType, ← type]
  simp [goesOn, ends]

end BusReference.Php

namespace BusReference.Definition

open BusReference.Php
open DocComment

/-! ## Documented types -/

theorem splitArray_of_identifier
    {name : String} (identifier : IsIdentifier name) :
    splitArray name = (name, false) := by
  have noBracket : ']' ∉ name.toList := identifier.not_mem (by decide)
  rw [splitArray]
  split
  · rename_i c cs reversed
    have inside : ']' ∈ name.toList.reverse := by
      rw [reversed]
      exact List.mem_cons_self
    exact absurd (List.mem_reverse.mp inside) noBracket
  · rfl

theorem qualifyTag_of_identifier
    {types : List Declaration} {name : String}
    (identifier : IsIdentifier name) :
    qualifyTag types name = qualify types name := by
  rw [qualifyTag, splitArray_of_identifier identifier]

/-! ## Handlers that document and declare what they return -/

/-- A handler after some imports, which documents and declares that it returns
`D`. -/
def handlerText (imports : String) : String :=
  "<?php namespace A;" ++ imports ++
    " class H{/** @return D */function handle():D{}}"

theorem toList_handlerText (imports : String) :
    (handlerText imports).toList =
      "<?php namespace A;".toList ++ imports.toList ++
        " class H{/** @return D */function handle():D{}}".toList := by
  unfold handlerText
  simp only [String.toList_append]

def handleAfter (full : String) : Method where
  name := handleMethod
  doc := some "/** @return D */"
  returnType := some full

/-- The handler as it is read where `D` stands for the given name. -/
def handlerAfter (imports full : String) : Declaration :=
  { Declaration.named "A\\H" .classType with
    methods := [handleAfter full]
    source := some (handlerText imports) }

theorem handleOf_handlerAfter (index : Index) (imports full : String) :
    handleOf index (handlerAfter imports full) =
      some (handlerAfter imports full, handleAfter full) := by
  have same : Text.Pieces.sameLetters handleMethod handleMethod = true := by
    exact beq_self_eq_true _
  exact handleOf_of_bare rfl rfl
    (by simp [handlerAfter, Declaration.method?, handleAfter, same])

theorem isIdentifier_d : IsIdentifier "D" :=
  ⟨by decide, List.forall_mem_singleton.mpr rfl⟩

theorem tag_handleAfter (full : String) :
    (handleAfter full).doc.bind returnTag? = some "D" := by
  show returnTag? "/** @return D */" = some "D"
  rfl

/-- A handler that imports a type in a plain statement. -/
def plainText : String := handlerText "use B\\D;"

theorem exists_plainImport_plainText :
    ∃ lexemes, Lexeme.read plainText.toList = .ok lexemes ∧
      PlainImport "D".toList "B\\D".toList lexemes 18 := by
  have evaluated : (Lexeme.read plainText.toList).toOption.map (fun lexemes =>
      (((lexemes.take 6).flatMap Lexeme.text).length,
        (lexemes.drop 6).take 4)) =
      some (18, [⟨.name, "use".toList⟩, ⟨.blank, [' ']⟩,
        ⟨.name, "B\\D".toList⟩, ⟨.punct, [';']⟩]) := by
    decide +kernel
  cases read : Lexeme.read plainText.toList with
  | error fault =>
      rw [read] at evaluated
      cases evaluated
  | ok lexemes =>
      rw [read] at evaluated
      obtain ⟨length, statement⟩ := Prod.mk.inj (Option.some.inj evaluated)
      have pieces : lexemes = lexemes.take 6 ++ (⟨.name, "use".toList⟩ ::
          ([⟨.blank, [' ']⟩] ++ ⟨.name, "B\\D".toList⟩ ::
            ([] ++ ⟨.punct, [';']⟩ :: (lexemes.drop 6).drop 4))) :=
        calc lexemes
          _ = lexemes.take 6 ++
                ((lexemes.drop 6).take 4 ++ (lexemes.drop 6).drop 4) := by
              rw [List.take_append_drop, List.take_append_drop]
          _ = _ := by
              rw [statement]
              rfl
      refine ⟨lexemes, rfl, ?_⟩
      generalize lexemes.take 6 = before at pieces length
      rw [pieces, ← length]
      exact .intro (List.cons_ne_nil _ _) (by simp) (List.cons_ne_nil 'B' [])
        (List.forall_mem_singleton.mpr rfl) rfl (List.forall_mem_nil _)

/-! ## Agreement -/

/--
What holds between the two look-ups in a file, for a name that an alias stands
for among the imports.
-/
structure LookupsAgree
    (text : String) (ds : List Declaration) (scope : Scope)
    (short full : String) : Prop where
  /-- The raw text has the name if its first statement for the alias has. -/
  found_iff : DocComment.import? text short = some full ↔
    FirstImport short.toList full.toList text.toList
  /-- It has the name if a plain statement imports it, nothing before that looks
  like a statement for another one, and nothing there like one for a longer
  one. -/
  found_of_plain : ∀ lexemes place,
    Lexeme.read text.toList = .ok lexemes →
    PlainImport short.toList full.toList lexemes place →
    (∀ m < place, ∀ other,
      ReadsImport short.toList other (text.toList.drop m) →
        other = full.toList) →
    (∀ other, ReadsImport short.toList other (text.toList.drop place) →
      other.length ≤ full.toList.length) →
    DocComment.import? text short = some full
  /-- The declared return type is the name. -/
  declared : IsIdentifier short → short.toLower ∉ Scope.builtinTypes →
    full ≠ "" → ∀ t rest, Body.endsType t = true →
    Body.readReturnType scope (.punct ':' :: .name short :: t :: rest) =
      (some full, t :: rest)
  /-- The documented return type of a handler of the file is the name if the raw
  text has it. -/
  documented : IsIdentifier short → ∀ index handler declaring method,
    handler ∈ ds → handleOf index handler = some (declaring, method) →
    method.doc.bind returnTag? = some short →
    DocComment.import? text short = some full →
    returnTypeOf index handler = .ok full
  /-- If the method is of the same file, it is the name only then, or if the
  alias is the name and the raw text has none. -/
  documented_iff : IsIdentifier short → ∀ index handler declaring method,
    handler ∈ ds → declaring ∈ ds →
    handleOf index handler = some (declaring, method) →
    method.doc.bind returnTag? = some short →
    (returnTypeOf index handler = .ok full ↔
      DocComment.import? text short = some full ∨
        DocComment.import? text short = none ∧ short = full)

/--
The name of an alias at the end of a file is the one that the raw text has for
it if the first statement there imports it; then a documented return type is the
declared one.
-/
theorem lookups_agree
    {text : String} {path : Option Files.FilePath} {ds : List Declaration}
    {scope : Scope} {short full : String}
    (done : SourceFile.readToEnd text path = .ok (ds, scope))
    (held : scope.imports.lookup short = some full) :
    LookupsAgree text ds scope short full := by
  have read : SourceFile.read text path = .ok ds := by
    rw [← SourceFile.map_fst_readToEnd, done]
    rfl
  have sources : ∀ d ∈ ds, d.source = some text :=
    SourceFile.source_of_read read
  refine ⟨import?_eq_some_iff, ?_, ?_, ?_, ?_⟩
  · intro lexemes place read plain alone longest
    exact import?_of_readsImport (plain.readsImport read) longest alone
  · intro identifier noBuiltin filled t rest ends
    have resolved := Scope.resolveType_of_lookup held identifier noBuiltin
    rw [← resolved] at filled ⊢
    exact Body.readReturnType_name filled ends rest
  · intro identifier index handler declaring method listed handles tagged found
    rw [returnTypeOf_of_tag handles tagged,
      qualifyTag_of_identifier identifier,
      qualify_of_import (sources handler listed) found]
  · intro identifier index handler declaring method listed ofFile handles tagged
    rw [returnTypeOf_of_tag handles tagged,
      qualifyTag_of_identifier identifier,
      qualify_of_same_source (sources handler listed)
        (sources declaring ofFile), Except.ok.injEq]
    cases import? text short with
    | none => simp
    | some other => simp

theorem lookups_agree_plainText :
    SourceFile.readToEnd plainText none =
        .ok ([handlerAfter "use B\\D;" "B\\D"], ⟨"A", [("D", "B\\D")]⟩) ∧
      DocComment.import? plainText "D" = some "B\\D" ∧
      Body.readReturnType ⟨"A", [("D", "B\\D")]⟩
          [.punct ':', .name "D", .punct ';'] =
        (some "B\\D", [.punct ';']) ∧
      returnTypeOf ⟨[handlerAfter "use B\\D;" "B\\D"]⟩
          (handlerAfter "use B\\D;" "B\\D") = .ok "B\\D" := by
  have done : SourceFile.readToEnd plainText none =
      .ok ([handlerAfter "use B\\D;" "B\\D"], ⟨"A", [("D", "B\\D")]⟩) := by
    decide +kernel
  have agree : LookupsAgree plainText _ _ "D" "B\\D" :=
    lookups_agree done rfl
  obtain ⟨lexemes, read, plain⟩ := exists_plainImport_plainText
  have free : ∀ m < 18,
      importAt? "D".toList (plainText.toList.drop m) = none := by
    decide +kernel
  have here : importAt? "D".toList (plainText.toList.drop 18) =
      some "B\\D".toList := by
    decide +kernel
  have found : import? plainText "D" = some "B\\D" :=
    agree.found_of_plain lexemes 18 read plain
      (fun m less other reads =>
        absurd reads (importAt?_eq_none_iff.mp (free m less) other))
      (importAt?_eq_some_iff.mp here).2
  exact ⟨done, found,
    agree.declared isIdentifier_d (by decide +kernel) (by decide) _ _ rfl,
    agree.documented isIdentifier_d _ _ _ _ List.mem_cons_self
      (handleOf_handlerAfter _ _ _) (tag_handleAfter _) found⟩

/-! ## Where the look-ups differ -/

/--
After the imports, in a file with one namespace, the reader holds the full name
for `D` and the raw text does not have it, so that the handler is documented to
return something else than it declares.
-/
structure IsPulledApart (imports full : String) : Prop where
  single : (Token.read (handlerText imports)).map
    (·.countP (Token.isKeyword "namespace")) = .ok 1
  held : (SourceFile.readToEnd (handlerText imports) none).map
      (fun (ds, scope) => (ds, scope.imports.lookup "D")) =
    .ok ([handlerAfter imports full], some full)
  missing : DocComment.import? (handlerText imports) "D" ≠ some full
  documented : returnTypeOf ⟨[handlerAfter imports full]⟩
    (handlerAfter imports full) ≠ .ok full

/-- Imports for which the raw text does not have the name that `D` stands for:
with an alias, of a group, of a list, of an absolute name, with a keyword in
capital letters, with comments in the statement, and after a comment that looks
like a statement. -/
def pulledApart : List (String × String) :=
  [("use B\\C as D;", "B\\C"), ("use B\\\x7bD\x7d;", "B\\D"),
    ("use C\\E,B\\D;", "B\\D"), ("use \\B\\D;", "B\\D"),
    ("USE B\\D;", "B\\D"), ("use/**/B\\D;", "B\\D"),
    ("use B\\D/**/;", "B\\D"), ("/* use C\\D; */use B\\D;", "B\\D")]

theorem lookups_pulled_apart :
    pulledApart.Forall fun imported => IsPulledApart imported.1 imported.2 := by
  have evaluated : ∀ imported ∈ pulledApart,
      (Token.read (handlerText imported.1)).map
          (·.countP (Token.isKeyword "namespace")) = .ok 1 ∧
      (SourceFile.readToEnd (handlerText imported.1) none).map
          (fun (ds, scope) => (ds, scope.imports.lookup "D")) =
        .ok ([handlerAfter imported.1 imported.2], some imported.2) ∧
      (DocComment.import? (handlerText imported.1) "D").getD "D" ≠
        imported.2 := by
    simp only [SourceFile.readToEnd, Token.read, DocComment.import?,
      toList_handlerText, String.reduceToList]
    decide +kernel
  rw [List.forall_iff_forall_mem]
  intro imported listed
  obtain ⟨single, read, other⟩ := evaluated imported listed
  refine ⟨single, read, fun found => ?_, fun same => ?_⟩
  · rw [found] at other
    exact other rfl
  · rw [returnTypeOf_of_tag (handleOf_handlerAfter _ _ _) (tag_handleAfter _),
      qualifyTag_of_identifier isIdentifier_d,
      qualify_of_same_source rfl rfl] at same
    exact other (Except.ok.inj same)

end BusReference.Definition
