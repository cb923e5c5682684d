import Mathlib.Tactic.Tauto
import BusReference.Proofs.Php.Body.Types
import BusReference.Proofs.Php.Grammar.Resolution

/-!
# Doc comments of methods

A doc comment of its own stands right before a method.  The reader gives every
method the last doc comment since the method, the semicolon or the block
before it.  A declaration of used traits is none of these: a doc comment before
it goes on to a method without one of its own that follows.  The main statement
is that the methods of a type have their own doc comments exactly if there is
no such place in its body.
-/

namespace BusReference.Php

namespace Body

open Grammar (Keyword)
open SourceFile (Origin Pending readDeclaration)

/-! ## Doc comments that go on -/

/-- The doc comment of its own, if the member is a method. -/
def MemberTokens.ownDocs : MemberTokens → List (Option String)
  | method lead _ _ => [lastDoc lead]
  | _ => []

/-- The doc comments of their own of all methods. -/
def ownDocs (members : List MemberTokens) : List (Option String) :=
  members.flatMap (·.ownDocs)

/-- After nothing but used traits comes a method without a doc comment of its
own. -/
inductive Takes : List MemberTokens → Prop
  | method {lead : List Piece} {keyword : Keyword "function"}
      {m : MethodTokens} {later : List MemberTokens}
      (noDoc : lastDoc lead = none) :
      Takes (.method lead keyword m :: later)
  | traitUse {lead : List Piece} {keyword : Keyword "use"} {u : TraitTokens}
      {later : List MemberTokens} (takes : Takes later) :
      Takes (.traitUse lead keyword u :: later)

/-- The doc comment before used traits goes on to a method. -/
inductive Leaks : List MemberTokens → Prop
  | here {lead : List Piece} {keyword : Keyword "use"} {u : TraitTokens}
      {later : List MemberTokens}
      (doc : lastDoc lead ≠ none) (takes : Takes later) :
      Leaks (.traitUse lead keyword u :: later)
  | later {member : MemberTokens} {members : List MemberTokens}
      (leaks : Leaks members) :
      Leaks (member :: members)

section Docs

variable
    {lead : List Piece} {members : List MemberTokens}

theorem takes_method_iff {keyword : Keyword "function"} {m : MethodTokens} :
    Takes (.method lead keyword m :: members) ↔ lastDoc lead = none := by
  constructor
  · rintro ⟨noDoc⟩
    exact noDoc
  · exact .method

theorem takes_traitUse_iff {keyword : Keyword "use"} {u : TraitTokens} :
    Takes (.traitUse lead keyword u :: members) ↔ Takes members := by
  constructor
  · intro goesOn
    cases goesOn with
    | traitUse takes => exact takes
  · exact .traitUse

theorem not_takes_statement {pieces : List Piece} :
    ¬ Takes (.statement pieces :: members) := nofun

theorem not_takes_block
    {pieces : List Piece} {inner : { ts : List Token // Block ts }} :
    ¬ Takes (.block pieces inner :: members) := nofun

theorem leaks_traitUse_iff {keyword : Keyword "use"} {u : TraitTokens} :
    Leaks (.traitUse lead keyword u :: members) ↔
      (lastDoc lead ≠ none ∧ Takes members) ∨ Leaks members := by
  constructor
  · rintro (⟨doc, takes⟩ | leaks)
    · exact .inl ⟨doc, takes⟩
    · exact .inr leaks
  · rintro (⟨doc, takes⟩ | leaks)
    · exact .here doc takes
    · exact .later leaks

theorem leaks_cons_iff
    {member : MemberTokens}
    (noTraits : ∀ lead keyword u, member ≠ .traitUse lead keyword u) :
    Leaks (member :: members) ↔ Leaks members := by
  constructor
  · rintro (_ | leaks)
    · exact absurd rfl (noTraits _ _ _)
    · exact leaks
  · exact .later

/-- Where a doc comment is in force, the methods have their own ones if none
goes on, neither that one nor one of theirs. -/
theorem map_doc_declaredMethods_iff
    (scope : Scope) (doc : Option String) (members : List MemberTokens) :
    (declaredMethods scope doc members).map (·.doc) = ownDocs members ↔
      ¬ Leaks members ∧ (doc = none ∨ ¬ Takes members) := by
  induction members generalizing doc with
  | nil => exact iff_of_true rfl ⟨nofun, .inr nofun⟩
  | cons member members ih =>
      rw [declaredMethods, List.map_append, ownDocs, List.flatMap_cons,
        ← ownDocs]
      cases member with
      | method lead keyword m =>
          have kept : (lastDoc lead).or doc = lastDoc lead ↔
              doc = none ∨ lastDoc lead ≠ none := by
            cases lastDoc lead <;> simp
          rw [leaks_cons_iff (by simp), takes_method_iff, ← kept, and_comm]
          simp only [MemberTokens.declared, MemberTokens.ownDocs,
            MemberTokens.docAfter, MethodTokens.declared, List.map_cons,
            List.map_nil, List.singleton_append, List.cons.injEq, ih,
            true_or, and_true]
      | traitUse lead keyword u =>
          have carried : (lastDoc lead).or doc = none ↔
              lastDoc lead = none ∧ doc = none :=
            Option.or_eq_none_iff
          rw [leaks_traitUse_iff, takes_traitUse_iff]
          simp only [MemberTokens.declared, MemberTokens.ownDocs,
            MemberTokens.docAfter, List.map_nil, List.nil_append, ih, carried]
          tauto
      | statement pieces =>
          rw [leaks_cons_iff (by simp)]
          simpa [MemberTokens.declared, MemberTokens.ownDocs,
            MemberTokens.docAfter, not_takes_statement] using ih none
      | block pieces inner =>
          rw [leaks_cons_iff (by simp)]
          simpa [MemberTokens.declared, MemberTokens.ownDocs,
            MemberTokens.docAfter, not_takes_block] using ih none

end Docs

/-! ## Types -/

section Types

/-- The methods have the doc comments of their own exactly if none goes on. -/
theorem exists_readDeclaration_docs
    (origin : Origin) (scope : Scope) (pending : Pending) (kind : TypeKind)
    (short : String) (written : TypeTokens) (rest : List Token) :
    ∃ d, readDeclaration origin scope pending kind short
        (written.tokens ++ rest) = .ok (d, rest) ∧
      d.methods = declaredMethods scope none written.body.members ∧
      (d.methods.map (·.doc) = ownDocs written.body.members ↔
        ¬ Leaks written.body.members) := by
  obtain ⟨d, read⟩ := exists_readDeclaration_tokens origin scope pending kind
    short written.header
  refine ⟨_, read written.body rest, rfl, ?_⟩
  rw [BodyTokens.declared, map_doc_declaredMethods_iff]
  simp

/--
In a file that is read, every declared type has a body of members, and its
methods have the doc comments of their own exactly if none goes on from used
traits to a later method.  All such bodies are read, wherever they stand.
-/
theorem map_doc_methods_iff
    {source : String} {path : Option Files.FilePath} {ds : List Declaration}
    (scanned : SourceFile.read source path = .ok ds) :
    (∀ d ∈ ds, ∃ (before : List Token) (scope : Scope) (pending : Pending)
      (kind : TypeKind) (short : String) (written : TypeTokens)
      (rest : List Token),
      Token.read source = .ok (before ++ (written.tokens ++ rest)) ∧
        readDeclaration ⟨path, source⟩ scope pending kind short
          (written.tokens ++ rest) = .ok (d, rest) ∧
        (d.methods.map (·.doc) = ownDocs written.body.members ↔
          ¬ Leaks written.body.members)) ∧
    ∀ (origin : Origin) (scope : Scope) (pending : Pending) (kind : TypeKind)
      (short : String) (written : TypeTokens) (rest : List Token),
      ∃ d, readDeclaration origin scope pending kind short
          (written.tokens ++ rest) = .ok (d, rest) ∧
        d.methods = declaredMethods scope none written.body.members ∧
        (d.methods.map (·.doc) = ownDocs written.body.members ↔
          ¬ Leaks written.body.members) := by
  refine ⟨?_, exists_readDeclaration_docs⟩
  intro d member
  rw [SourceFile.read] at scanned
  split at scanned
  · cases scanned
  · rename_i ts lexed
    obtain ⟨scope, pending, kind, short, us, rest, ⟨before, rfl⟩, read⟩ :=
      SourceFile.exists_place_of_readFrom scanned d member
    obtain ⟨written, rfl⟩ := exists_typeTokens read
    obtain ⟨e, same, -, docs⟩ := exists_readDeclaration_docs
      ⟨path, source⟩ scope pending kind short written rest
    rw [read] at same
    cases same
    exact ⟨before, scope, pending, kind, short, written, rest, lexed, read,
      docs⟩

/-- A class that uses a trait and has a method; only the trait is commented. -/
def commentedTraitUse : String :=
  "<?php class A\x7b/** d */use T;function f()\x7b;\x7d\x7d"

def commentedTraitUseBody : BodyTokens where
  members :=
    [.traitUse [.token ⟨.docComment "/** d */", by decide⟩] Grammar.useKeyword
        ⟨⟨[.name "T"], by decide⟩, none⟩,
      .method [] Grammar.functionKeyword
        ⟨false, "f", ⟨[], .nil⟩, none,
          some ⟨[.punct ';'], .plain (by decide) .nil⟩⟩]
  trailing := []

/-- The comment of the used trait goes on to the method. -/
theorem doc_of_commentedTraitUse :
    Token.read commentedTraitUse =
        .ok ([.name "class", .name "A"] ++
          (TypeTokens.mk ⟨[], List.not_mem_nil⟩
            commentedTraitUseBody).tokens) ∧
      ownDocs commentedTraitUseBody.members = [none] ∧
      (SourceFile.read commentedTraitUse none).map
          (·.flatMap fun d => d.methods.map (·.doc)) =
        .ok [some "/** d */"] := by
  refine ⟨Grammar.eq_ok_of_toOption (by decide +kernel), rfl, ?_⟩
  exact Grammar.eq_ok_of_toOption (by decide +kernel)

/-- The class in the file is such a type. -/
theorem map_doc_methods_iff_commentedTraitUse :
    ∃ ds, SourceFile.read commentedTraitUse none = .ok ds ∧
      ds.map (·.name) = ["A"] ∧
      ∀ d ∈ ds, ∃ written : TypeTokens,
        (d.methods.map (·.doc) = ownDocs written.body.members ↔
          ¬ Leaks written.body.members) := by
  have named : (SourceFile.read commentedTraitUse none).map
      (·.map (·.name)) = .ok ["A"] :=
    Grammar.eq_ok_of_toOption (by decide +kernel)
  obtain ⟨ds, scanned, names⟩ := exists_of_map_eq_ok named
  refine ⟨ds, scanned, names, fun d member => ?_⟩
  obtain ⟨_, _, _, _, _, written, _, -, -, docs⟩ :=
    (map_doc_methods_iff scanned).1 d member
  exact ⟨written, docs⟩

end Types

end Body

end BusReference.Php
