import BusReference.Php.Index
import BusReference.Proofs.Php.Lexeme.Measures
import BusReference.Proofs.Php.Remainder
import BusReference.Proofs.Text.Inert

/-!
# Names in source texts

A name in a source text consists of name characters and backslashes, and what
readers put together from such names does so as well.  Hence the declared types
of an index that was read from source texts have inert names, whatever the
texts contain.
-/

namespace BusReference.Php

open BusReference.Text (Inert steers)

/-! ## Lexemes -/

namespace Lexeme.Reading

theorem not_steers_of_isNameChar
    {c : Char} (named : isNameChar c = true) : steers c = false := by
  rw [Bool.eq_false_iff]
  intro steering
  have apart : ∀ c ∈ ['/', '.', '\n', ']', ')', '"'],
      isNameChar c = false := by
    simp only [List.forall_mem_cons, List.not_mem_nil, false_implies,
      implies_true, and_true]
    decide
  rw [apart c (Text.steers_iff.mp steering)] at named
  cases named

end Lexeme.Reading

/-- A lexeme that is a name is inert. -/
theorem Lexeme.inert_of_readFrom
    {line : Nat} {cs : List Char} {lexemes : List Lexeme}
    (done : readFrom line cs = .ok lexemes) :
    ∀ x ∈ lexemes, x.shape = .name → Inert x.text := by
  intro x member named d inside
  obtain ⟨c, rest, n, text, measured⟩ := exists_measured_of_mem done x member
  rw [named] at measured
  rw [text] at inside
  rcases measured.letters_of_name d inside with letter | rfl
  · exact Reading.not_steers_of_isNameChar letter
  · rfl

/-- The token is inert if it is a name. -/
def Token.IsInert : Token → Prop
  | .name text => Inert text.toList
  | _ => True

/-- All names among the tokens of a source text are inert. -/
theorem Token.inert_of_read
    {source : String} {ts : List Token} (done : read source = .ok ts) :
    ∀ t ∈ ts, t.IsInert := by
  rw [read] at done
  obtain ⟨lexemes, lexed, rfl⟩ := exists_of_map_eq_ok done
  intro t member
  obtain ⟨x, inside, stands⟩ := List.mem_filterMap.mp member
  have named := Lexeme.inert_of_readFrom lexed x inside
  cases t with
  | name text =>
      obtain ⟨shape, cs⟩ := x
      cases shape
      all_goals simp [Lexeme.token?] at stands
      rw [Token.IsInert, ← stands, String.toList_ofList]
      exact named rfl
  | _ => trivial

/-! ## Readers of names -/

namespace Scope

theorem readGroup_namespaceName
    (base : String) (scope : Scope) (ts : List Token) :
    (readGroup base scope ts).1.namespaceName = scope.namespaceName := by
  fun_induction readGroup base scope ts with
  | case1 => rfl
  | case2 => rfl
  | case3 scope member ts full read ih => exact ih
  | case4 scope t ts _ _ ih => exact ih

theorem readImport_namespaceName
    (scope : Scope) (name : String) (ts : List Token) :
    (readImport scope name ts).1.namespaceName = scope.namespaceName := by
  unfold readImport
  split
  · split
    · exact readGroup_namespaceName _ _ _
    · rfl
  · rfl

theorem readImports_namespaceName (scope : Scope) (ts : List Token) :
    (readImports scope ts).1.namespaceName = scope.namespaceName := by
  fun_induction readImports scope ts with
  | case1 scope name ts read rest left shorter ih =>
      rw [ih]
      exact readImport_namespaceName _ _ _
  | case2 => exact readImport_namespaceName _ _ _
  | case3 => exact readImport_namespaceName _ _ _
  | case4 => rfl
  | case5 => rfl

/-- Imports leave the namespace as it is. -/
theorem readUse_namespaceName (scope : Scope) (ts : List Token) :
    (readUse scope ts).1.namespaceName = scope.namespaceName := by
  rw [readUse]
  split
  · rfl
  · exact readImports_namespaceName _ _

theorem inert_qualify
    {scope : Scope} (inert : Inert scope.namespaceName.toList)
    {name : String} (named : Inert name.toList) :
    Inert (scope.qualify name).toList := by
  rw [qualify]
  split
  · exact named
  · rw [String.toList_append, String.toList_append]
    exact (inert.append (by decide)).append named

end Scope

namespace SourceFile

/-- What an item declares or leaves in force has an inert name. -/
def Item.IsInert : Item → Prop
  | declaration d _ => Inert d.name.toList
  | other scope _ _ => Inert scope.namespaceName.toList

theorem inert_of_readDeclaration
    {origin : Origin} {scope : Scope} {pending : Pending} {kind : TypeKind}
    {short : String} {ts rest : List Token} {d : Declaration}
    (inert : Inert scope.namespaceName.toList)
    (named : Inert short.toList)
    (done :
      readDeclaration origin scope pending kind short ts = .ok (d, rest)) :
    Inert d.name.toList := by
  obtain ⟨heritage, body, members, -, -, rfl⟩ :=
    exists_of_readDeclaration done
  exact Text.inert_plainName (Scope.inert_qualify inert named)

theorem inert_readNamespace
    {ts : List Token} (inert : ∀ t ∈ ts, t.IsInert) :
    Inert (readNamespace ts).1.toList := by
  unfold readNamespace
  split
  · exact inert _ List.mem_cons_self
  · show Inert "".toList
    decide

theorem inert_of_readWord
    {origin : Origin} {scope : Scope} {pending : Pending}
    {previous : Option Token} {word : String} {ts : List Token} {item : Item}
    (inForce : Inert scope.namespaceName.toList)
    (inert : ∀ t ∈ ts, t.IsInert)
    (done : readWord origin scope pending previous word ts = .ok item) :
    item.IsInert := by
  unfold readWord at done
  split at done
  · cases done
    exact inForce
  · cases done
    exact inForce
  · cases done
    exact inForce
  · cases done
    exact Text.inert_plainName (inert_readNamespace inert)
  · split at done
    · cases done
      show Inert (Scope.readUse scope _).1.namespaceName.toList
      rw [Scope.readUse_namespaceName]
      exact inForce
    · cases done
      exact inForce
  · obtain ⟨rest, -, rfl⟩ := exists_of_map_eq_ok done
    exact inForce
  · split at done
    · split at done
      · obtain ⟨⟨d, after⟩, read, rfl⟩ := exists_of_map_eq_ok done
        exact inert_of_readDeclaration inForce
          (inert _ List.mem_cons_self) read
      · cases done
        exact inForce
    · cases done
      exact inForce

theorem inert_of_readItem
    {origin : Origin} {scope : Scope} {pending : Pending}
    {previous : Option Token} {t : Token} {ts : List Token} {item : Item}
    (inForce : Inert scope.namespaceName.toList)
    (inert : ∀ t ∈ ts, t.IsInert)
    (done : readItem origin scope pending previous t ts = .ok item) :
    item.IsInert := by
  unfold readItem at done
  split at done
  · cases done
    exact inForce
  · cases done
    exact inForce
  · exact inert_of_readWord inForce inert done
  · cases done
    exact inForce

/-- What is read under an inert namespace from inert names has inert names. -/
theorem inert_of_readFrom
    {origin : Origin} {scope : Scope} {pending : Pending}
    {previous : Option Token} {ts : List Token} {ds : List Declaration}
    (inForce : Inert scope.namespaceName.toList)
    (inert : ∀ t ∈ ts, t.IsInert)
    (done : readFrom origin scope pending previous ts = .ok ds) :
    ∀ d ∈ ds, Inert d.name.toList := by
  fun_induction readFrom origin scope pending previous ts generalizing ds with
  | case1 =>
      cases done
      intro d member
      cases member
  | case2 => cases done
  | case3 scope pending previous t ts d rest item shorter ih =>
      have inertLater : ∀ t ∈ ts, t.IsInert :=
        fun t member => inert t (List.mem_cons_of_mem _ member)
      have inertRest : ∀ t ∈ rest, t.IsInert :=
        fun t member => inertLater t ((isSuffix_of_readItem item).subset member)
      obtain ⟨others, later, rfl⟩ := exists_of_map_eq_ok done
      intro d' member
      rcases List.mem_cons.mp member with rfl | inside
      · exact inert_of_readItem inForce inertLater item
      · exact ih inForce inertRest later d' inside
  | case4 scope pending previous t ts scope' pending' rest item shorter ih =>
      have inertLater : ∀ t ∈ ts, t.IsInert :=
        fun t member => inert t (List.mem_cons_of_mem _ member)
      have inertRest : ∀ t ∈ rest, t.IsInert :=
        fun t member => inertLater t ((isSuffix_of_readItem item).subset member)
      exact ih (inert_of_readItem inForce inertLater item) inertRest done

/-- The types that a source text declares have inert names. -/
theorem inert_of_read
    {source : String} {path : Option Files.FilePath} {ds : List Declaration}
    (done : read source path = .ok ds) :
    ∀ d ∈ ds, Inert d.name.toList := by
  rw [read] at done
  rcases tokens : Token.read source with fault | ts
  · rw [tokens] at done
    cases done
  · rw [tokens] at done
    exact inert_of_readFrom (by decide) (Token.inert_of_read tokens) done

end SourceFile

/-! ## Indices -/

namespace Index

/-- The index holds what was read from source texts, one after another. -/
inductive Scanned : Index → Prop
  | empty : Scanned {}
  | source {index : Index} {text : String} {path : Option Files.FilePath}
      {ds : List Declaration}
      (scanned : Scanned index)
      (read : SourceFile.read text path = .ok ds) :
      Scanned (index.registerAll ds)

/-- The declared types have inert names. -/
def Inert (index : Index) : Prop :=
  ∀ d ∈ index.types, Text.Inert d.name.toList

instance (index : Index) : Decidable index.Inert :=
  inferInstanceAs (Decidable (∀ d ∈ index.types, _))

theorem Inert.register
    {index : Index} (inert : index.Inert) {d : Declaration}
    (named : Text.Inert d.name.toList) : (index.register d).Inert := by
  rw [Index.register]
  split
  · exact inert
  · intro d' member
    rcases List.mem_append.mp member with old | new
    · exact inert d' old
    · rw [List.mem_singleton.mp new]
      exact named

theorem Inert.registerAll
    {index : Index} (inert : index.Inert) {ds : List Declaration}
    (named : ∀ d ∈ ds, Text.Inert d.name.toList) :
    (index.registerAll ds).Inert := by
  induction ds generalizing index with
  | nil => exact inert
  | cons d ds ih =>
      exact ih (inert.register (named d List.mem_cons_self))
        fun d' member => named d' (List.mem_cons_of_mem _ member)

/-- An index of source texts has inert names. -/
theorem Scanned.inert {index : Index} (scanned : index.Scanned) :
    index.Inert := by
  induction scanned with
  | empty =>
      intro d member
      cases member
  | source scanned read ih =>
      exact ih.registerAll (SourceFile.inert_of_read read)

end Index

end BusReference.Php
