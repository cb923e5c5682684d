import BusReference.Proofs.Php.Position.Members

/-!
# Imports by positions

The declarations of namespaces and of imports, read with a position in the
tokens of the whole file.
-/

namespace BusReference.Php.Position

variable (tokens : List Token)

/-- Reads the alias that may follow an imported name. -/
def readAlias (full : String) (pos : Nat) : String × Nat :=
  if tokens[pos]?.any (·.isKeyword "as") then
    match tokens[pos + 1]? with
    | some (.name short) => (short, pos + 2)
    | some _ => (shortName full, pos + 2)
    | none => (shortName full, pos + 1)
  else (shortName full, pos)

/-- Reads the members of a group of imports. -/
def readGroup (base : String) (scope : Scope) (pos : Nat) :
    Except Stop (Scope × Nat) :=
  match next : tokens[pos]? with
  | none => .ok (scope, pos)
  | some (.punct '}') => .ok (scope, pos + 1)
  | some (.name member) =>
    have := lt_of_getElem? next
    let (short, stop) := readAlias tokens (base ++ member) (pos + 1)
    if pos < stop then
      readGroup base (scope.addImport short (base ++ member)) stop
    else .error (.defect .standstill)
  | some _ =>
    have := lt_of_getElem? next
    readGroup base scope (pos + 1)
  termination_by tokens.length - pos

/-- Reads one imported name or one group behind the name. -/
def readImport (scope : Scope) (name : String) (pos : Nat) :
    Except Stop (Scope × Nat) :=
  if tokens[pos]? = some (.punct '{') ∧ name.toList.getLast? = some '\\' then
    readGroup tokens name scope (pos + 1)
  else
    let (short, stop) := readAlias tokens name pos
    .ok (scope.addImport short name, stop)

/-- Reads the names of a declaration of imports. -/
def readImports (scope : Scope) (pos : Nat) : Except Stop (Scope × Nat) :=
  match next : tokens[pos]? with
  | none => .ok (scope, pos)
  | some (.name name) =>
    have := lt_of_getElem? next
    match readImport tokens scope (plainName name) (pos + 1) with
    | .error stop => .error stop
    | .ok (scope, stop) =>
      match tokens[stop]? with
      | none => .ok (scope, stop)
      | some t =>
        if t = .punct ',' then
          if pos < stop + 1 then readImports scope (stop + 1)
          else .error (.defect .standstill)
        else .ok (scope, stop + 1)
  | some _ => .ok (scope, pos + 1)
  termination_by tokens.length - pos

/-- Reads what follows the keyword of a declaration of imports. -/
def readUse (scope : Scope) (pos : Nat) : Except Stop (Scope × Nat) :=
  if tokens[pos]?.any (fun t => t.isKeyword "function" || t.isKeyword "const")
  then .ok (scope, skipThrough tokens ';' pos)
  else readImports tokens scope pos

/-- Reads the name behind the keyword of a namespace. -/
def readNamespace (pos : Nat) : String × Nat :=
  match tokens[pos]? with
  | some (.name name) => (name, pos + 1)
  | _ => ("", pos)

variable {tokens} {pos : Nat}

theorem readAlias_of_not_isKeyword
    (full : String) {t : Token} (notAs : ¬t.isKeyword "as" = true)
    (ts : List Token) :
    Scope.readAlias full (t :: ts) = (shortName full, t :: ts) := by
  unfold Scope.readAlias
  exact if_neg notAs

theorem readAlias_eq (full : String) (inside : pos ≤ tokens.length) :
    readAlias tokens full pos =
      ((Scope.readAlias full (tokens.drop pos)).1,
        place tokens (Scope.readAlias full (tokens.drop pos)).2) := by
  cases next : tokens[pos]? with
  | none =>
      rw [readAlias, next, drop_of_getElem?_none next]
      exact congrArg (shortName full, ·) (eq_place_nil inside next)
  | some t =>
      rw [readAlias, next, Option.any_some]
      split
      · rename_i isAs
        cases second : tokens[pos + 1]? with
        | none =>
            rw [drop_of_getElem? next, drop_of_getElem?_none second,
              Scope.readAlias, if_pos isAs]
            exact congrArg (shortName full, ·)
              (eq_place_nil (lt_of_getElem? next) second)
        | some u =>
            have behind := place_drop (lt_of_getElem? second)
            rw [drop_of_getElem? next, drop_of_getElem? second]
            cases u
            all_goals
              simp only [Scope.readAlias, if_pos isAs]
              exact congrArg (Prod.mk _) behind.symm
      · rename_i notAs
        rw [drop_of_getElem? next, readAlias_of_not_isKeyword _ notAs,
          ← drop_of_getElem? next, place_drop inside]

theorem readGroup_eq
    {base : String} {scope : Scope} (inside : pos ≤ tokens.length) :
    readGroup tokens base scope pos =
      placed tokens (.ok (Scope.readGroup base scope (tokens.drop pos))) := by
  fun_induction readGroup tokens base scope pos with
  | case1 scope pos next =>
      rw [drop_of_getElem?_none next, Scope.readGroup]
      exact congrArg (fun pos => Except.ok (scope, pos))
        (eq_place_nil inside next)
  | case2 scope pos next =>
      rw [drop_of_getElem? next, Scope.readGroup, placed,
        place_drop (lt_of_getElem? next)]
  | case3 scope pos member next within short stop read ahead ih =>
      rw [readAlias_eq _ within] at read
      cases read
      rw [ih (place_le _ _), drop_place (Scope.readAlias_isSuffix _ _),
        drop_of_getElem? next, Scope.readGroup]
  | case4 scope pos member next within short stop read still =>
      rw [readAlias_eq _ within] at read
      cases read
      exact absurd (lt_place within (Scope.readAlias_isSuffix _ _)) still
  | case5 scope pos t noEnd noName next within ih =>
      rw [ih within, drop_of_getElem? next, Scope.readGroup] <;> assumption

theorem readImport_eq
    (scope : Scope) (name : String) (inside : pos ≤ tokens.length) :
    readImport tokens scope name pos =
      placed tokens (.ok (Scope.readImport scope name (tokens.drop pos))) := by
  rw [readImport]
  split
  · rename_i group
    rw [readGroup_eq (lt_of_getElem? group.1), drop_of_getElem? group.1,
      Scope.readImport, if_pos group.2]
  · rename_i noGroup
    have single : Scope.readImport scope name (tokens.drop pos) =
        (scope.addImport (Scope.readAlias name (tokens.drop pos)).1 name,
          (Scope.readAlias name (tokens.drop pos)).2) := by
      unfold Scope.readImport
      split
      · rename_i rest left
        exact if_neg fun ends => noGroup ⟨getElem?_of_drop left, ends⟩
      · rfl
    rw [readAlias_eq name inside, single]
    rfl

/-- What a reader of an import gives comes from what the reader of lists
gives. -/
theorem exists_of_readImport
    {scope later : Scope} {name : String} {stop : Nat}
    (inside : pos ≤ tokens.length)
    (done : readImport tokens scope name pos = .ok (later, stop)) :
    ∃ rest, Scope.readImport scope name (tokens.drop pos) = (later, rest) ∧
      stop = place tokens rest ∧ rest <:+ tokens.drop pos := by
  rw [readImport_eq scope name inside] at done
  obtain ⟨rest, read, same⟩ := exists_of_placed done
  have listed := Except.ok.inj read
  have shorter := Scope.readImport_isSuffix scope name (tokens.drop pos)
  rw [listed] at shorter
  exact ⟨rest, listed, same, shorter⟩

theorem readImports_eq
    {scope : Scope} (inside : pos ≤ tokens.length) :
    readImports tokens scope pos =
      placed tokens (.ok (Scope.readImports scope (tokens.drop pos))) := by
  fun_induction readImports tokens scope pos with
  | case1 scope pos next =>
      rw [drop_of_getElem?_none next, Scope.readImports]
      exact congrArg (fun pos => Except.ok (scope, pos))
        (eq_place_nil inside next)
  | case2 scope pos name next within stop failed =>
      rw [readImport_eq _ _ within] at failed
      cases failed
  | case3 scope pos name next within later stop done ended =>
      obtain ⟨rest, read, rfl, shorter⟩ := exists_of_readImport within done
      have left := drop_of_getElem?_none ended
      rw [drop_place shorter] at left
      subst left
      rw [drop_of_getElem? next, Scope.readImports_last read]
      rfl
  | case4 scope pos name next within later stop done ahead comma ih =>
      obtain ⟨rest, read, rfl, shorter⟩ := exists_of_readImport within done
      have left := drop_of_getElem? comma
      rw [drop_place shorter] at left
      rw [left] at read
      rw [ih (lt_of_getElem? comma), drop_of_getElem? next,
        Scope.readImports_cons read, if_pos rfl]
  | case5 scope pos name next within later stop done still comma =>
      obtain ⟨rest, read, rfl, shorter⟩ := exists_of_readImport within done
      exact absurd (Nat.lt_succ_of_lt (lt_place within shorter)) still
  | case6 scope pos name next within later stop done t follows noComma =>
      obtain ⟨rest, read, rfl, shorter⟩ := exists_of_readImport within done
      have left := drop_of_getElem? follows
      rw [drop_place shorter] at left
      rw [left] at read
      rw [drop_of_getElem? next, Scope.readImports_cons read, if_neg noComma,
        placed, place_drop (lt_of_getElem? follows)]
  | case7 scope pos t noName next =>
      rw [drop_of_getElem? next, Scope.readImports, placed,
        place_drop (lt_of_getElem? next)]
      assumption

theorem readUse_eq (scope : Scope) (inside : pos ≤ tokens.length) :
    readUse tokens scope pos =
      placed tokens (.ok (Scope.readUse scope (tokens.drop pos))) := by
  rw [readUse, Scope.readUse, List.head?_drop]
  split
  · rw [skipThrough_eq ';' inside]
    rfl
  · exact readImports_eq inside

theorem readNamespace_eq (inside : pos ≤ tokens.length) :
    readNamespace tokens pos =
      ((SourceFile.readNamespace (tokens.drop pos)).1,
        place tokens (SourceFile.readNamespace (tokens.drop pos)).2) := by
  rw [readNamespace]
  split
  · rename_i name next
    rw [drop_of_getElem? next, SourceFile.readNamespace,
      place_drop (lt_of_getElem? next)]
  · rename_i noName
    rw [SourceFile.readNamespace, place_drop inside]
    exact fun name rest left => noName name (getElem?_of_drop left)

end BusReference.Php.Position
