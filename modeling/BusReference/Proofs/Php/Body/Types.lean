import BusReference.Proofs.Php.Body.Members

/-!
# Declared types by their tokens

After its name, a declared type has a header without braces and a body of
members.  Whatever is read as a declaration has this form, and everything of
this form is read, with the methods and the traits of its members.
-/

namespace BusReference.Php

/-! ## Headers -/

namespace SourceFile

section Headers

variable {scope : Scope} {kind : TypeKind} {owner : String}

theorem exists_readHeader_step
    (scope : Scope) (kind : TypeKind) (owner : String) {t : Token}
    (noBrace : t ≠ .punct '\x7b') (clause : Clause) (heritage : Heritage) :
    ∃ later added, ∀ ts, readHeader scope kind owner clause heritage (t :: ts) =
      readHeader scope kind owner later added ts := by
  cases t with
  | name text =>
      by_cases extending : Token.isKeyword "extends" (.name text) = true
      · refine ⟨.extending, heritage, fun ts => ?_⟩
        rw [readHeader, if_pos extending]
      · by_cases implementing :
            Token.isKeyword "implements" (.name text) = true
        · refine ⟨.implementing, heritage, fun ts => ?_⟩
          rw [readHeader, if_neg extending, if_pos implementing]
        · refine ⟨clause, heritage.add kind clause (scope.resolve text),
            fun ts => ?_⟩
          rw [readHeader, if_neg extending, if_neg implementing]
  | punct c =>
      have other : c ≠ '\x7b' := by
        rintro rfl
        exact noBrace rfl
      refine ⟨clause, heritage, fun ts => ?_⟩
      rw [readHeader, if_neg other]
  | _ => exact ⟨clause, heritage, fun _ => rfl⟩

theorem exists_readHeader
    (scope : Scope) (kind : TypeKind) (owner : String)
    {header : List Token} (noBrace : .punct '\x7b' ∉ header)
    (clause : Clause) (heritage : Heritage) :
    ∃ result, ∀ rest, readHeader scope kind owner clause heritage
      (header ++ .punct '\x7b' :: rest) = .ok (result, rest) := by
  induction header generalizing clause heritage with
  | nil => exact ⟨heritage, fun _ => rfl⟩
  | cons t ts ih =>
      rw [List.mem_cons, not_or] at noBrace
      obtain ⟨later, added, step⟩ := exists_readHeader_step scope kind owner
        (Ne.symm noBrace.1) clause heritage
      obtain ⟨result, read⟩ := ih noBrace.2 later added
      refine ⟨result, fun rest => ?_⟩
      rw [List.cons_append, step, read]

theorem exists_header_of_readHeader
    {clause : Clause} {heritage result : Heritage} {ts rest : List Token}
    (done :
      readHeader scope kind owner clause heritage ts = .ok (result, rest)) :
    ∃ header, .punct '\x7b' ∉ header ∧
      ts = header ++ .punct '\x7b' :: rest := by
  induction ts generalizing clause heritage with
  | nil => cases done
  | cons t ts ih =>
      have step : t ≠ .punct '\x7b' →
          (∃ header, .punct '\x7b' ∉ header ∧
            ts = header ++ .punct '\x7b' :: rest) →
          ∃ header, .punct '\x7b' ∉ header ∧
            t :: ts = header ++ .punct '\x7b' :: rest := by
        rintro other ⟨header, noBrace, rfl⟩
        refine ⟨t :: header, ?_, rfl⟩
        rw [List.mem_cons, not_or]
        exact ⟨other.symm, noBrace⟩
      unfold readHeader at done
      split at done
      · split at done
        · exact step nofun (ih done)
        · split at done
          · exact step nofun (ih done)
          · exact step nofun (ih done)
      · split at done
        · rename_i c opens
          cases done
          exact ⟨[], List.not_mem_nil, by rw [opens]; rfl⟩
        · rename_i c other
          exact step (by simpa using other) (ih done)
      · rename_i notName notMark
        exact step (notMark _) (ih done)

end Headers

end SourceFile

namespace Body

open SourceFile (Origin Pending readDeclaration)

/-! ## Types -/

/-- The tokens of a declared type after its name. -/
structure TypeTokens where
  header : { ts : List Token // .punct '\x7b' ∉ ts }
  body : BodyTokens

def TypeTokens.tokens (written : TypeTokens) : List Token :=
  written.header.1 ++
    .punct '\x7b' :: (written.body.tokens ++ [.punct '\x7d'])

section Types

variable
    (origin : Origin) (scope : Scope) (pending : Pending) (kind : TypeKind)
    (short : String)

/-- The body tells the methods and the traits, and the rest comes from what
stands before it. -/
theorem exists_readDeclaration_tokens
    (header : { ts : List Token // .punct '\x7b' ∉ ts }) :
    ∃ d : Declaration, ∀ (body : BodyTokens) (rest : List Token),
      readDeclaration origin scope pending kind short
          ((TypeTokens.mk header body).tokens ++ rest) =
        .ok ({ d with
               traits := (body.declared scope).traits
               methods := (body.declared scope).methods }, rest) := by
  obtain ⟨heritage, read⟩ := SourceFile.exists_readHeader scope kind
    (Declaration.named (scope.qualify short) kind).name header.2 .none {}
  refine ⟨{ Declaration.named (scope.qualify short) kind with
    doc := pending.doc
    attributes := pending.attributes
    parent := heritage.parent
    interfaces := heritage.interfaces
    path := origin.path
    source := some origin.source }, fun body rest => ?_⟩
  have split : (TypeTokens.mk header body).tokens ++ rest =
      header.1 ++ .punct '\x7b' ::
        (body.tokens ++ .punct '\x7d' :: rest) := by
    simp [TypeTokens.tokens]
  rw [split, readDeclaration, read]
  dsimp only
  rw [read_bodyTokens]

variable {origin scope pending kind short}

/-- Whatever is read as a declaration has a header and a body. -/
theorem exists_typeTokens
    {ts rest : List Token} {d : Declaration}
    (done :
      readDeclaration origin scope pending kind short ts = .ok (d, rest)) :
    ∃ written : TypeTokens, ts = written.tokens ++ rest := by
  obtain ⟨heritage, inside, members, header, found, -⟩ :=
    SourceFile.exists_of_readDeclaration done
  obtain ⟨before, noBrace, rfl⟩ :=
    SourceFile.exists_header_of_readHeader header
  obtain ⟨body, rfl, -⟩ := read_eq_ok_iff.mp found
  refine ⟨⟨⟨before, noBrace⟩, body⟩, ?_⟩
  simp [TypeTokens.tokens]

end Types

end Body

end BusReference.Php
