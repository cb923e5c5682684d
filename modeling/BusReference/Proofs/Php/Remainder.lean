import BusReference.Php.SourceFile

/-!
# What readers leave over

Every reader of tokens consumes a start of them and leaves the rest as it is:
what it leaves over is a suffix of what it was given.  No reader makes up a
token.  A loop over items goes on with what the reader of the item leaves over.
So every declaration of a file is read at some place of it, and what holds of
one that is read holds of all of them.
-/

namespace BusReference.Php

/-- A result that a reader maps comes from a result of what it maps. -/
theorem exists_of_map_eq_ok
    {α β : Type} {fault : Type} {x : Except fault α} {f : α → β} {b : β}
    (done : x.map f = .ok b) : ∃ a, x = .ok a ∧ f a = b := by
  cases x with
  | error e => cases done
  | ok a =>
      cases done
      exact ⟨a, rfl, rfl⟩

/-- The tokens inside of brackets are followed by those after them. -/
theorem isSuffix_of_closeBracket
    {opener closer : Char} {ts inner rest : List Token}
    (closed : closeBracket opener closer ts = .ok (inner, rest)) :
    rest <:+ ts := by
  rw [eq_of_closeBracket closed]
  exact (List.suffix_cons _ rest).trans (List.suffix_append inner _)

/-- What is left over of the tokens after the first one. -/
theorem isSuffix_cons
    {t : Token} {ts rest : List Token}
    (later : rest <:+ ts) : rest <:+ t :: ts :=
  later.trans (List.suffix_cons t ts)

/-! ## Imports -/

namespace Scope

theorem readAlias_isSuffix (full : String) (ts : List Token) :
    (readAlias full ts).2 <:+ ts := by
  fun_cases readAlias full ts with
  | case1 => exact List.suffix_refl _
  | case2 t as short rest => exact isSuffix_cons (List.suffix_cons _ _)
  | case3 t as other rest => exact isSuffix_cons (List.suffix_cons _ _)
  | case4 t as => exact List.nil_suffix
  | case5 t ts => exact List.suffix_refl _

theorem readGroup_isSuffix
    (base : String) (scope : Scope) (ts : List Token) :
    (readGroup base scope ts).2 <:+ ts := by
  fun_induction readGroup base scope ts with
  | case1 => exact List.suffix_refl _
  | case2 => exact List.suffix_cons _ _
  | case3 scope member ts full read ih =>
      exact isSuffix_cons (ih.trans (readAlias_isSuffix full ts))
  | case4 scope t ts _ _ ih => exact isSuffix_cons ih

theorem readImport_isSuffix
    (scope : Scope) (name : String) (ts : List Token) :
    (readImport scope name ts).2 <:+ ts := by
  unfold readImport
  split
  · split
    · exact isSuffix_cons (readGroup_isSuffix _ _ _)
    · exact readAlias_isSuffix _ _
  · exact readAlias_isSuffix _ _

theorem readImports_isSuffix (scope : Scope) (ts : List Token) :
    (readImports scope ts).2 <:+ ts := by
  fun_induction readImports scope ts with
  | case1 scope name ts read rest left shorter ih =>
      have imported := readImport_isSuffix scope (plainName name) ts
      rw [left] at imported
      exact isSuffix_cons
        (ih.trans ((List.suffix_cons _ _).trans imported))
  | case2 scope name ts read t rest other left =>
      have imported := readImport_isSuffix scope (plainName name) ts
      rw [left] at imported
      exact isSuffix_cons ((List.suffix_cons _ _).trans imported)
  | case3 => exact List.nil_suffix
  | case4 => exact List.suffix_cons _ _
  | case5 => exact List.suffix_refl _

theorem readImports_cons
    {scope later : Scope} {name : String} {ts us : List Token} {t : Token}
    (read : readImport scope (plainName name) ts = (later, t :: us)) :
    readImports scope (.name name :: ts) =
      if t = .punct ',' then readImports later us else (later, us) := by
  rw [readImports.eq_def]
  dsimp only
  split
  · rename_i after same
    rw [read] at same ⊢
    obtain ⟨rfl, rfl⟩ := List.cons.inj same
    rfl
  · rename_i after notComma same
    rw [read] at same ⊢
    obtain ⟨rfl, rfl⟩ := List.cons.inj same
    rw [if_neg notComma]
  · rename_i same
    rw [read] at same
    cases same

theorem readImports_last
    {scope later : Scope} {name : String} {ts : List Token}
    (read : readImport scope (plainName name) ts = (later, [])) :
    readImports scope (.name name :: ts) = (later, []) := by
  rw [readImports.eq_def]
  dsimp only
  split
  · rename_i after same
    rw [read] at same
    cases same
  · rename_i after notComma same
    rw [read] at same
    cases same
  · rw [read]

theorem dropThrough_isSuffix (c : Char) (ts : List Token) :
    dropThrough c ts <:+ ts := by
  induction ts with
  | nil => exact List.suffix_refl _
  | cons t ts ih =>
      rw [dropThrough]
      split
      · exact List.suffix_cons t ts
      · exact isSuffix_cons ih

theorem readUse_isSuffix (scope : Scope) (ts : List Token) :
    (readUse scope ts).2 <:+ ts := by
  rw [readUse]
  split
  · exact dropThrough_isSuffix _ _
  · exact readImports_isSuffix _ _

end Scope

/-! ## Members -/

theorem Attribute.skipGroup_isSuffix (depth : Nat) (ts : List Token) :
    skipGroup depth ts <:+ ts := by
  fun_induction skipGroup depth ts with
  | case1 => exact List.suffix_refl _
  | case4 ts => exact List.suffix_cons _ ts
  | _ => exact isSuffix_cons (by assumption)

theorem Attribute.read_isSuffix (scope : Scope) (ts : List Token) :
    (read scope ts).2 <:+ ts := by
  rw [read, readGroup_snd]
  exact skipGroup_isSuffix 0 ts

namespace Body

theorem skipIf_isSuffix (p : Token → Bool) (ts : List Token) :
    skipIf p ts <:+ ts := by
  cases ts with
  | nil => exact List.suffix_refl _
  | cons t ts =>
      rw [skipIf]
      split
      · exact List.suffix_cons t ts
      · exact List.suffix_refl _

theorem readReturnType_isSuffix (scope : Scope) (ts : List Token) :
    (readReturnType scope ts).2 <:+ ts := by
  unfold readReturnType
  split
  · exact isSuffix_cons (List.dropWhile_suffix _)
  · exact List.suffix_refl _

theorem isSuffix_of_skipMethodBody
    {method : String} {ts rest : List Token}
    (skipped : skipMethodBody method ts = .ok rest) : rest <:+ ts := by
  unfold skipMethodBody at skipped
  split at skipped
  · cases skipped
    exact List.suffix_cons _ _
  · obtain ⟨⟨inner, after⟩, closed, rfl⟩ := exists_of_map_eq_ok skipped
    exact isSuffix_cons (isSuffix_of_closeBracket closed)
  · cases skipped

theorem isSuffix_of_readNamedMethod
    {scope : Scope} {doc : Option String} {name : String}
    {ts rest : List Token} {m : Method}
    (done : readNamedMethod scope doc name ts = .ok (m, rest)) :
    rest <:+ ts := by
  unfold readNamedMethod at done
  split at done
  · rename_i ts
    split at done
    · cases done
    · rename_i inner after closed
      dsimp only at done
      split at done
      · cases done
      · rename_i final skipped
        cases done
        exact isSuffix_cons ((isSuffix_of_skipMethodBody skipped).trans
          ((readReturnType_isSuffix scope after).trans
            (isSuffix_of_closeBracket closed)))
  · cases done

theorem isSuffix_of_readMethod
    {scope : Scope} {doc : Option String} {ts rest : List Token} {m : Method}
    (done : readMethod scope doc ts = .ok (m, rest)) : rest <:+ ts := by
  rw [readMethod] at done
  split at done
  · rename_i name after skipped
    have skips := skipIf_isSuffix (· == .punct '&') ts
    rw [skipped] at skips
    exact (isSuffix_cons (isSuffix_of_readNamedMethod done)).trans skips
  · cases done

theorem readTraitUse_isSuffix (scope : Scope) (ts : List Token) :
    (readTraitUse scope ts).2 <:+ ts := by
  fun_induction readTraitUse scope ts with
  | case1 => exact List.suffix_refl _
  | case2 name ts names rest read ih =>
      rw [read] at ih
      exact isSuffix_cons ih
  | case3 => exact isSuffix_cons (Scope.dropThrough_isSuffix _ _)
  | case4 => exact List.suffix_cons _ _
  | case5 c ts _ _ ih => exact isSuffix_cons ih
  | case6 t ts _ _ ih => exact isSuffix_cons ih

theorem isSuffix_of_readItem
    {scope : Scope} {depth : Nat} {doc : Option String} {t : Token}
    {ts : List Token} {item : Item}
    (done : readItem scope depth doc t ts = .ok item) :
    item.rest <:+ ts := by
  unfold readItem at done
  split at done
  · cases done
    exact List.suffix_refl _
  · split at done
    · cases done
      exact List.nil_suffix
    · cases done
      exact List.suffix_refl _
  · cases done
    exact List.suffix_refl _
  · cases done
    exact List.suffix_refl _
  · cases done
    exact Attribute.skipGroup_isSuffix 0 ts
  · split at done
    · obtain ⟨⟨m, after⟩, method, rfl⟩ := exists_of_map_eq_ok done
      exact isSuffix_of_readMethod method
    · split at done
      · cases done
        exact readTraitUse_isSuffix scope ts
      · cases done
        exact List.suffix_refl _

theorem isSuffix_of_readFrom
    {scope : Scope} {owner : String} {depth : Nat} {doc : Option String}
    {ts rest : List Token} {members : Members}
    (done : readFrom scope owner depth doc ts = .ok (members, rest)) :
    rest <:+ ts := by
  fun_induction readFrom scope owner depth doc ts generalizing members with
  | case1 => cases done
  | case2 => cases done
  | case3 =>
      cases done
      exact List.suffix_cons _ _
  | case4 depth doc t ts m after item shorter ih =>
      obtain ⟨⟨others, left⟩, later, same⟩ := exists_of_map_eq_ok done
      cases same
      exact isSuffix_cons ((ih later).trans (isSuffix_of_readItem item))
  | case5 depth doc t ts names after item shorter ih =>
      obtain ⟨⟨others, left⟩, later, same⟩ := exists_of_map_eq_ok done
      cases same
      exact isSuffix_cons ((ih later).trans (isSuffix_of_readItem item))
  | case6 depth doc t ts depth' doc' after item shorter ih =>
      exact isSuffix_cons ((ih done).trans (isSuffix_of_readItem item))

theorem readFrom_cons
    {scope : Scope} {owner : String} {depth : Nat} {doc : Option String}
    {t : Token} {ts : List Token} :
    readFrom scope owner depth doc (t :: ts) =
      match readItem scope depth doc t ts with
      | .error fault => .error fault
      | .ok .close => .ok ({}, ts)
      | .ok (.method m rest) =>
          (readFrom scope owner depth none rest).map
            fun (members, after) => (members.addMethod m, after)
      | .ok (.traitUse names rest) =>
          (readFrom scope owner depth doc rest).map
            fun (members, after) => (members.addTraits names, after)
      | .ok (.other depth doc rest) =>
          readFrom scope owner depth doc rest := by
  rw [readFrom]
  split
  all_goals simp_all

end Body

/-! ## Declarations -/

namespace SourceFile

theorem isSuffix_of_readHeader
    {scope : Scope} {kind : TypeKind} {owner : String} {clause : Clause}
    {heritage result : Heritage} {ts rest : List Token}
    (done :
      readHeader scope kind owner clause heritage ts = .ok (result, rest)) :
    rest <:+ ts := by
  induction ts generalizing clause heritage with
  | nil => cases done
  | cons t ts ih =>
      unfold readHeader at done
      split at done
      · split at done
        · exact isSuffix_cons (ih done)
        · split at done
          · exact isSuffix_cons (ih done)
          · exact isSuffix_cons (ih done)
      · split at done
        · cases done
          exact List.suffix_cons _ _
        · exact isSuffix_cons (ih done)
      · exact isSuffix_cons (ih done)

/-- What is declared comes from a header and from a body after it. -/
theorem exists_of_readDeclaration
    {origin : Origin} {scope : Scope} {pending : Pending} {kind : TypeKind}
    {short : String} {ts rest : List Token} {d : Declaration}
    (done :
      readDeclaration origin scope pending kind short ts = .ok (d, rest)) :
    ∃ heritage body members,
      readHeader scope kind (plainName (scope.qualify short)) .none {} ts =
          .ok (heritage, body) ∧
        Body.read scope (plainName (scope.qualify short)) body =
          .ok (members, rest) ∧
        d = { Declaration.named (scope.qualify short) kind with
          doc := pending.doc
          attributes := pending.attributes
          parent := heritage.parent
          interfaces := heritage.interfaces
          traits := members.traits
          methods := members.methods
          path := origin.path
          source := some origin.source } := by
  rw [readDeclaration] at done
  split at done
  · cases done
  · rename_i heritage body header
    split at done
    · cases done
    · rename_i members after read
      cases done
      exact ⟨heritage, body, members, header, read, rfl⟩

theorem isSuffix_of_readDeclaration
    {origin : Origin} {scope : Scope} {pending : Pending} {kind : TypeKind}
    {short : String} {ts rest : List Token} {d : Declaration}
    (done :
      readDeclaration origin scope pending kind short ts = .ok (d, rest)) :
    rest <:+ ts := by
  obtain ⟨heritage, body, members, header, read, -⟩ :=
    exists_of_readDeclaration done
  exact (Body.isSuffix_of_readFrom read).trans (isSuffix_of_readHeader header)

theorem skipFunctionBody_of_closed
    {ts inner rest : List Token}
    (closed : closeBracket '(' ')' ts = .ok (inner, rest)) :
    skipFunctionBody (.punct '(' :: ts) = skipFunctionBody rest := by
  rw [skipFunctionBody]
  split
  · rename_i fault unclosed
    rw [closed] at unclosed
    cases unclosed
  · rename_i same
    rw [closed] at same
    cases same
    rfl

theorem skipFunctionBody_of_unclosed
    {ts : List Token} {fault : Fault}
    (unclosed : closeBracket '(' ')' ts = .error fault) :
    skipFunctionBody (.punct '(' :: ts) = .error fault := by
  rw [skipFunctionBody]
  split
  · rename_i same
    rw [unclosed] at same
    cases same
    rfl
  · rename_i same
    rw [unclosed] at same
    cases same

theorem isSuffix_of_skipFunctionBody
    {ts rest : List Token} (done : skipFunctionBody ts = .ok rest) :
    rest <:+ ts := by
  fun_induction skipFunctionBody ts with
  | case1 =>
      cases done
      exact List.suffix_refl _
  | case2 ts =>
      obtain ⟨⟨inner, after⟩, closed, rfl⟩ := exists_of_map_eq_ok done
      exact isSuffix_cons (isSuffix_of_closeBracket closed)
  | case3 =>
      cases done
      exact List.suffix_refl _
  | case4 => cases done
  | case5 ts inner after closed shorter ih =>
      exact isSuffix_cons ((ih done).trans (isSuffix_of_closeBracket closed))
  | case6 t ts _ _ _ ih => exact isSuffix_cons (ih done)

theorem isSuffix_of_skipFunction
    {ts rest : List Token} (done : skipFunction ts = .ok rest) :
    rest <:+ ts := by
  have named : ∀ p,
      Body.skipIf p (Body.skipIf (· == .punct '&') ts) <:+ ts :=
    fun p => (Body.skipIf_isSuffix p _).trans (Body.skipIf_isSuffix _ ts)
  unfold skipFunction at done
  dsimp only at done
  split at done
  · rename_i parameters opened
    have left : Token.punct '(' :: parameters <:+ ts := by
      rw [← opened]
      exact named _
    split at done
    · cases done
    · rename_i inner after closed
      exact (isSuffix_cons ((isSuffix_of_skipFunctionBody done).trans
        (isSuffix_of_closeBracket closed))).trans left
  · cases done
    exact named _

theorem readNamespace_isSuffix (ts : List Token) :
    (readNamespace ts).2 <:+ ts := by
  unfold readNamespace
  split
  · exact List.suffix_cons _ _
  · exact List.suffix_refl _

theorem isSuffix_of_readWord
    {origin : Origin} {scope : Scope} {pending : Pending}
    {previous : Option Token} {word : String} {ts : List Token} {item : Item}
    (done :
      readWord origin scope pending previous word ts = .ok item) :
    item.rest <:+ ts := by
  unfold readWord at done
  split at done
  · cases done
    exact List.suffix_refl _
  · cases done
    exact List.suffix_refl _
  · cases done
    exact List.suffix_refl _
  · cases done
    exact readNamespace_isSuffix ts
  · split at done
    · cases done
      exact Scope.readUse_isSuffix _ _
    · cases done
      exact List.suffix_refl _
  · obtain ⟨rest, skipped, rfl⟩ := exists_of_map_eq_ok done
    exact isSuffix_of_skipFunction skipped
  · split at done
    · split at done
      · obtain ⟨⟨d, after⟩, read, rfl⟩ := exists_of_map_eq_ok done
        exact isSuffix_cons (isSuffix_of_readDeclaration read)
      · cases done
        exact List.suffix_refl _
    · cases done
      exact List.suffix_refl _

theorem isSuffix_of_readItem
    {origin : Origin} {scope : Scope} {pending : Pending}
    {previous : Option Token} {t : Token} {ts : List Token} {item : Item}
    (done : readItem origin scope pending previous t ts = .ok item) :
    item.rest <:+ ts := by
  unfold readItem at done
  split at done
  · cases done
    exact List.suffix_refl _
  · cases done
    exact Attribute.read_isSuffix scope ts
  · exact isSuffix_of_readWord done
  · cases done
    exact List.suffix_refl _

theorem readFrom_cons
    {origin : Origin} {scope : Scope} {pending : Pending}
    {previous : Option Token} {t : Token} {ts : List Token} :
    readFrom origin scope pending previous (t :: ts) =
      match readItem origin scope pending previous t ts with
      | .error fault => .error fault
      | .ok (.declaration d rest) =>
          (readFrom origin scope {} (lastBefore (t :: ts) rest) rest).map
            (d :: ·)
      | .ok (.other scope pending rest) =>
          readFrom origin scope pending (lastBefore (t :: ts) rest) rest := by
  rw [readFrom]
  split
  all_goals simp_all

/-! ## Places of declarations -/

/-- A declared type comes from the tokens after its name. -/
theorem exists_eq_of_readItem
    {origin : Origin} {scope : Scope} {pending : Pending}
    {previous : Option Token} {t : Token} {ts rest : List Token}
    {d : Declaration}
    (done : readItem origin scope pending previous t ts =
      .ok (.declaration d rest)) :
    ∃ kind short after, ts = .name short :: after ∧
      readDeclaration origin scope pending kind short after =
        .ok (d, rest) := by
  unfold readItem at done
  split at done
  · cases done
  · cases done
  · unfold readWord at done
    split at done
    · cases done
    · cases done
    · cases done
    · cases done
    · split at done <;> cases done
    · obtain ⟨after, -, other⟩ := exists_of_map_eq_ok done
      cases other
    · split at done
      · split at done
        · obtain ⟨⟨read, left⟩, declares, same⟩ := exists_of_map_eq_ok done
          cases same
          exact ⟨_, _, _, rfl, declares⟩
        · cases done
      · cases done
  · cases done

/-- Every declaration of a file is read at some place of it. -/
theorem exists_place_of_readFrom
    {origin : Origin} {scope : Scope} {pending : Pending}
    {previous : Option Token} {ts : List Token} {ds : List Declaration}
    (done : readFrom origin scope pending previous ts = .ok ds) :
    ∀ d ∈ ds, ∃ inForce waiting kind short us rest, us <:+ ts ∧
      readDeclaration origin inForce waiting kind short us =
        .ok (d, rest) := by
  fun_induction readFrom origin scope pending previous ts
    generalizing ds with
  | case1 =>
      cases done
      exact nofun
  | case2 => cases done
  | case3 scope pending previous t ts first rest item shorter ih =>
      obtain ⟨others, later, rfl⟩ := exists_of_map_eq_ok done
      intro d member
      rcases List.mem_cons.mp member with rfl | inside
      · obtain ⟨kind, short, after, rfl, read⟩ := exists_eq_of_readItem item
        exact ⟨scope, pending, kind, short, after, rest,
          isSuffix_cons (List.suffix_cons _ _), read⟩
      · obtain ⟨inForce, waiting, kind, short, after, left, suffix, read⟩ :=
          ih later d inside
        exact ⟨inForce, waiting, kind, short, after, left,
          isSuffix_cons (suffix.trans (isSuffix_of_readItem item)), read⟩
  | case4 scope pending previous t ts later pending' rest item shorter ih =>
      intro d member
      obtain ⟨inForce, waiting, kind, short, after, left, suffix, read⟩ :=
        ih done d member
      exact ⟨inForce, waiting, kind, short, after, left,
        isSuffix_cons (suffix.trans (isSuffix_of_readItem item)), read⟩

end SourceFile

end BusReference.Php
