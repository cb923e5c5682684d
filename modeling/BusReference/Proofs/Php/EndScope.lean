import BusReference.Proofs.Php.Remainder

/-!
# What is in force at the end of a file

Reading a file passes the namespace and the imports along and drops them at its
end.  Here the same reading also returns them.  It gives the same declarations
and fails with the same faults.
-/

namespace BusReference.Php.SourceFile

/-- The declarations of a file from some place on, and what is in force at the
end of the file. -/
def readToEndFrom
    (origin : Origin) (scope : Scope) (pending : Pending)
    (previous : Option Token) :
    List Token → Except Fault (List Declaration × Scope)
  | [] => .ok ([], scope)
  | t :: ts =>
    match h : readItem origin scope pending previous t ts with
    | .error fault => .error fault
    | .ok (.declaration d rest) =>
      have : rest.length ≤ ts.length := rest_length_le_of_readItem h
      (readToEndFrom origin scope {} (lastBefore (t :: ts) rest) rest).map
        fun (ds, last) => (d :: ds, last)
    | .ok (.other scope pending rest) =>
      have : rest.length ≤ ts.length := rest_length_le_of_readItem h
      readToEndFrom origin scope pending (lastBefore (t :: ts) rest) rest
  termination_by ts => ts.length

/-- The types that a source text declares, and what is in force at its end. -/
def readToEnd (source : String) (path : Option Files.FilePath) :
    Except Fault (List Declaration × Scope) :=
  match Token.read source with
  | .error fault => .error (.lexical fault)
  | .ok ts => readToEndFrom { path, source } {} {} none ts

theorem map_fst_readToEndFrom
    (origin : Origin) (scope : Scope) (pending : Pending)
    (previous : Option Token) (ts : List Token) :
    (readToEndFrom origin scope pending previous ts).map Prod.fst =
      readFrom origin scope pending previous ts := by
  fun_induction readToEndFrom origin scope pending previous ts with
  | case1 scope =>
      rw [readFrom]
      rfl
  | case2 scope pending previous t ts fault failed =>
      rw [readFrom_cons, failed]
      rfl
  | case3 scope pending previous t ts d rest item shorter ih =>
      rw [readFrom_cons, item]
      dsimp only
      rw [← ih]
      cases readToEndFrom origin scope {} (lastBefore (t :: ts) rest) rest <;>
        rfl
  | case4 scope pending previous t ts later pending' rest item shorter ih =>
      rw [readFrom_cons, item]
      exact ih

theorem map_fst_readToEnd (source : String) (path : Option Files.FilePath) :
    (readToEnd source path).map Prod.fst = read source path := by
  rw [readToEnd, read]
  cases Token.read source with
  | error fault => rfl
  | ok ts => exact map_fst_readToEndFrom _ _ _ _ ts

/-! ## Sources of declarations -/

theorem source_of_readDeclaration
    {origin : Origin} {scope : Scope} {pending : Pending} {kind : TypeKind}
    {short : String} {ts rest : List Token} {d : Declaration}
    (done :
      readDeclaration origin scope pending kind short ts = .ok (d, rest)) :
    d.source = some origin.source := by
  obtain ⟨heritage, body, members, -, -, rfl⟩ :=
    exists_of_readDeclaration done
  rfl

/-- A declaration keeps the text that it is read from. -/
theorem source_of_read
    {source : String} {path : Option Files.FilePath} {ds : List Declaration}
    (done : read source path = .ok ds) :
    ∀ d ∈ ds, d.source = some source := by
  rw [read] at done
  split at done
  · cases done
  · intro d member
    obtain ⟨_, _, _, _, _, _, -, declares⟩ :=
      exists_place_of_readFrom done d member
    exact source_of_readDeclaration declares

end BusReference.Php.SourceFile
