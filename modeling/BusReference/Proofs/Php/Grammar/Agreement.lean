import Mathlib.Data.List.TakeWhile
import BusReference.Proofs.Php.Grammar.Resolution

/-!
# Scopes in which names stand for the same

What a declaration declares depends on the scope only through the namespace and
through what names are resolved to.  Imports change what a name is resolved to
unless the name already stands for what is imported; this is the first statement
here.  The other one is that a declaration is read as the same in scopes that
agree.
-/

namespace BusReference.Php

open Grammar
  (IsAbsolute firstSegment laterSegments resolve_of_absolute
    resolve_of_relative)

namespace Scope

variable {scope other : Scope}

/-! ## Names after imports -/

section Imports

variable {name : String} {entries : List (String × String)}

theorem firstSegment_append_laterSegments (name : String) :
    firstSegment name ++ laterSegments name = name := by
  rw [firstSegment, laterSegments, ← String.ofList_append,
    List.takeWhile_append_dropWhile, String.ofList_toList]

theorem firstSegment_of_not_mem (single : '\\' ∉ name.toList) :
    firstSegment name = name := by
  have whole : ∀ c ∈ name.toList, (c != '\\') = true := fun c inside =>
    bne_iff_ne.mpr (ne_of_mem_of_not_mem inside single)
  rw [firstSegment, List.takeWhile_eq_self_iff.mpr whole, String.ofList_toList]

theorem laterSegments_of_not_mem (single : '\\' ∉ name.toList) :
    laterSegments name = "" := by
  have whole := firstSegment_append_laterSegments name
  rw [firstSegment_of_not_mem single] at whole
  exact String.append_eq_left_iff.mp whole

theorem not_mem_firstSegment (name : String) :
    '\\' ∉ (firstSegment name).toList := by
  rw [firstSegment, String.toList_ofList]
  intro inside
  have other := List.mem_takeWhile_imp inside
  exact absurd other (by decide)

theorem not_isAbsolute_of_not_mem (single : '\\' ∉ name.toList) :
    ¬ IsAbsolute name := by
  intro absolute
  exact single (List.mem_of_head? absolute)

theorem resolve_eq_of_isAbsolute (absolute : IsAbsolute name) :
    scope.resolve name = other.resolve name := by
  obtain ⟨cs, leads⟩ := List.head?_eq_some_iff.mp absolute
  have whole : name.toList = '\\' :: (String.ofList cs).toList := by
    rw [leads, String.toList_ofList]
  rw [resolve_of_absolute _ whole, resolve_of_absolute _ whole]

theorem qualify_append (scope : Scope) (first later : String) :
    scope.qualify (first ++ later) = scope.qualify first ++ later := by
  rw [qualify, qualify]
  split
  · rfl
  · exact String.append_assoc.symm

/-- Only the first segment of a name is looked up. -/
theorem resolve_eq_append (scope : Scope) (relative : ¬ IsAbsolute name) :
    scope.resolve name =
      scope.resolve (firstSegment name) ++ laterSegments name := by
  have single := not_mem_firstSegment name
  rw [resolve_of_relative _ relative,
    resolve_of_relative _ (not_isAbsolute_of_not_mem single),
    firstSegment_of_not_mem single, laterSegments_of_not_mem single]
  split
  · rw [String.append_empty]
  · rw [← qualify_append, firstSegment_append_laterSegments]

theorem resolve_of_unknown
    (single : '\\' ∉ name.toList)
    (unknown : scope.imports.lookup name = none) :
    scope.resolve name = scope.qualify name := by
  rw [resolve_of_relative _ (not_isAbsolute_of_not_mem single),
    firstSegment_of_not_mem single, unknown]

theorem resolve_addImports (relative : ¬ IsAbsolute name) :
    (scope.addImports entries).resolve name =
      match entries.reverse.lookup (firstSegment name) with
      | some full => full ++ laterSegments name
      | none => scope.resolve name := by
  rw [resolve_of_relative _ relative, resolve_of_relative _ relative,
    addImports, List.lookup_append]
  cases entries.reverse.lookup (firstSegment name) <;> rfl

/--
Imports keep what all names are resolved to exactly if each alias already stands
for what it is imported as.  Of several imports of one alias the last counts.
-/
theorem resolve_addImports_iff
    (aliases : ∀ entry ∈ entries, '\\' ∉ entry.1.toList) :
    (∀ name, (scope.addImports entries).resolve name = scope.resolve name) ↔
      ∀ short full, entries.reverse.lookup short = some full →
        scope.resolve short = full := by
  constructor
  · intro kept short full found
    obtain ⟨newer, older, split, -⟩ := List.lookup_eq_some_iff.mp found
    have listed : (short, full) ∈ entries := by
      rw [← List.mem_reverse, split]
      exact List.mem_append_right _ List.mem_cons_self
    have single := aliases _ listed
    have imported : (scope.addImports entries).resolve short = full := by
      rw [resolve_addImports (not_isAbsolute_of_not_mem single),
        firstSegment_of_not_mem single, found, laterSegments_of_not_mem single]
      exact String.append_empty
    rw [← kept, imported]
  · intro known name
    by_cases absolute : IsAbsolute name
    · exact resolve_eq_of_isAbsolute absolute
    · rw [resolve_addImports absolute]
      cases found : entries.reverse.lookup (firstSegment name) with
      | none => rfl
      | some full =>
          rw [resolve_eq_append scope absolute, known _ _ found]

end Imports

/-! ## Agreement -/

/-- The scopes have one namespace, and names stand for the same in both. -/
structure Agrees (scope other : Scope) : Prop where
  sameNamespace : scope.namespaceName = other.namespaceName
  sameNames : ∀ name, scope.resolve name = other.resolve name

namespace Agrees

theorem trans
    {third : Scope} (first : scope.Agrees other) (second : other.Agrees third) :
    scope.Agrees third where
  sameNamespace := first.sameNamespace.trans second.sameNamespace
  sameNames name := (first.sameNames name).trans (second.sameNames name)

variable (agrees : scope.Agrees other)

include agrees

theorem addImports (entries : List (String × String)) :
    (scope.addImports entries).Agrees (other.addImports entries) where
  sameNamespace := agrees.sameNamespace
  sameNames name := by
    by_cases absolute : IsAbsolute name
    · exact resolve_eq_of_isAbsolute absolute
    · rw [resolve_addImports absolute, resolve_addImports absolute,
        agrees.sameNames]

theorem resolve_eq : scope.resolve = other.resolve :=
  funext agrees.sameNames

theorem qualify_eq : scope.qualify = other.qualify := by
  funext name
  rw [qualify, qualify, agrees.sameNamespace]

theorem resolveType_eq : scope.resolveType = other.resolveType := by
  funext name
  rw [resolveType, resolveType, agrees.sameNames]

/-! ## Types and parameters -/

open Signature
  (memberText parameter readParameter readParameterAfter readParameters
    readType typeMembers)

theorem memberText_eq : memberText scope = memberText other := by
  funext t
  unfold memberText
  rw [agrees.resolveType_eq]

theorem readType_eq : readType scope = readType other := by
  funext ts
  have members : typeMembers scope ts = typeMembers other ts := by
    rw [typeMembers, typeMembers, agrees.memberText_eq]
  rw [readType, readType, members]

theorem readParameterAfter_eq
    (before : List Token) (variadic : Bool) (ts : List Token) :
    readParameterAfter scope before variadic ts =
      readParameterAfter other before variadic ts := by
  have named : parameter scope = parameter other := by
    funext typeTokens dots name value
    unfold parameter
    rw [agrees.readType_eq]
  fun_induction readParameterAfter scope before variadic ts with
  | case1 => rw [readParameterAfter]
  | case2 before variadic ts ih => rw [readParameterAfter, ih]
  | case3 before variadic ts ih => rw [readParameterAfter, ih]
  | case4 before variadic name ts => rw [readParameterAfter, named]
  | case5 before variadic t ts _ _ _ reference ih =>
      rw [readParameterAfter, if_pos reference, ih]
      all_goals assumption
  | case6 before variadic t ts _ _ _ noReference modifier ih =>
      rw [readParameterAfter, if_neg noReference, if_pos modifier, ih]
      all_goals assumption
  | case7 before variadic t ts _ _ _ noReference noModifier ih =>
      rw [readParameterAfter, if_neg noReference, if_neg noModifier, ih]
      all_goals assumption

theorem readParameters_eq : readParameters scope = readParameters other := by
  funext ts
  have item : readParameter scope = readParameter other := by
    funext us
    exact agrees.readParameterAfter_eq [] false us
  rw [readParameters, readParameters, item]

/-! ## Bodies and headers -/

open Body (readItem readMethod readNamedMethod readReturnType readTraitUse)
open SourceFile (Clause Heritage Origin Pending readDeclaration readHeader)

theorem readMethod_eq : readMethod scope = readMethod other := by
  have returns : readReturnType scope = readReturnType other := by
    funext ts
    unfold readReturnType
    rw [agrees.readType_eq]
  have named : readNamedMethod scope = readNamedMethod other := by
    funext doc name ts
    unfold readNamedMethod
    rw [returns, agrees.readParameters_eq]
  funext doc ts
  rw [readMethod, readMethod, named]

theorem readTraitUse_eq (ts : List Token) :
    readTraitUse scope ts = readTraitUse other ts := by
  induction ts with
  | nil => rfl
  | cons t ts ih =>
      cases t with
      | name text => rw [readTraitUse, readTraitUse, ih, agrees.resolve_eq]
      | punct c => rw [readTraitUse, readTraitUse, ih]
      | _ => exact ih

theorem readBody_eq
    (owner : String) (depth : Nat) (doc : Option String) (ts : List Token) :
    Body.readFrom scope owner depth doc ts =
      Body.readFrom other owner depth doc ts := by
  have item : readItem scope = readItem other := by
    funext depth doc t ts
    unfold readItem
    rw [agrees.readMethod_eq, agrees.readTraitUse_eq]
  fun_induction Body.readFrom scope owner depth doc ts with
  | case1 => rw [Body.readFrom]
  | case2 depth doc t ts fault read =>
      rw [Body.readFrom_cons, ← item, read]
  | case3 depth doc t ts read => rw [Body.readFrom_cons, ← item, read]
  | case4 depth doc t ts m rest read _ ih =>
      rw [Body.readFrom_cons, ← item, read, ih]
  | case5 depth doc t ts names rest read _ ih =>
      rw [Body.readFrom_cons, ← item, read, ih]
  | case6 depth doc t ts deeper later rest read _ ih =>
      rw [Body.readFrom_cons, ← item, read, ih]

theorem readHeader_eq
    (kind : TypeKind) (owner : String) (clause : Clause) (heritage : Heritage)
    (ts : List Token) :
    readHeader scope kind owner clause heritage ts =
      readHeader other kind owner clause heritage ts := by
  induction ts generalizing clause heritage with
  | nil => rfl
  | cons t ts ih =>
      cases t with
      | name text =>
          rw [readHeader, readHeader, ih, ih, ih, agrees.resolve_eq]
      | punct c => rw [readHeader, readHeader, ih]
      | _ => exact ih clause heritage

/-- A declaration is read as the same. -/
theorem readDeclaration_eq
    (origin : Origin) (pending : Pending) (kind : TypeKind) (short : String)
    (ts : List Token) :
    readDeclaration origin scope pending kind short ts =
      readDeclaration origin other pending kind short ts := by
  have body : Body.read scope = Body.read other := by
    funext owner us
    exact agrees.readBody_eq owner 0 none us
  rw [readDeclaration, readDeclaration, agrees.qualify_eq,
    agrees.readHeader_eq, body]

end Agrees

end Scope

end BusReference.Php
