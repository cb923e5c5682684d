import Mathlib.Data.List.Nodup
import BusReference.Proofs.HandlerMap.Discovery

/-!
# Requests to an index

An index is filled by requests: to add what a source text declares, or to
register a declaration.  A text that cannot be read leaves the index as it is,
since all of its declarations are read before the first one is registered.  So
after any requests the index holds the first declaration of each name that they
offered, in the order in which those came, and finds it under that name.
-/

namespace BusReference.Php

/-- The first declaration of each name. -/
def firsts : List Declaration → List Declaration
  | [] => []
  | d :: ds => d :: (firsts ds).filter (·.name != d.name)

theorem mem_of_mem_firsts
    {ds : List Declaration} {d : Declaration}
    (member : d ∈ firsts ds) : d ∈ ds := by
  induction ds with
  | nil => exact member
  | cons e ds ih =>
      rcases List.mem_cons.mp member with rfl | later
      · exact List.mem_cons_self
      · exact List.mem_cons_of_mem _ (ih (List.mem_filter.mp later).1)

theorem nodup_names_firsts (ds : List Declaration) :
    ((firsts ds).map (·.name)).Nodup := by
  induction ds with
  | nil => exact List.nodup_nil
  | cons d ds ih =>
      rw [firsts, List.map_cons, List.nodup_cons]
      refine ⟨?_, ih.sublist (List.filter_sublist.map _)⟩
      rw [List.mem_map]
      rintro ⟨e, kept, same⟩
      exact bne_iff_ne.mp (List.mem_filter.mp kept).2 same

theorem find?_firsts (ds : List Declaration) (name : String) :
    (firsts ds).find? (·.name == name) = ds.find? (·.name == name) := by
  induction ds with
  | nil => rfl
  | cons d ds ih =>
      rw [firsts, List.find?_cons, List.find?_cons]
      split
      · rfl
      · rename_i apart
        rw [← ih, List.find?_filter]
        -- what has the name that is looked for does not have that of `d`
        congr 1
        funext e
        by_cases named : e.name = name
        · subst named
          simp [ne_comm, beq_eq_false_iff_ne.mp apart]
        · simp [named]

namespace Index

/-- The names of the registered declarations, in their order. -/
def names (index : Index) : List String := index.types.map (·.name)

theorem lookup_eq_none_iff {index : Index} {name : String} :
    lookup index.types name = none ↔ name ∉ index.names := by
  simp [lookup, names]

theorem registerAll_cons
    (index : Index) (d : Declaration) (ds : List Declaration) :
    index.registerAll (d :: ds) = (index.register d).registerAll ds :=
  rfl

theorem register_of_mem_names
    {index : Index} {d : Declaration} (taken : d.name ∈ index.names) :
    index.register d = index := by
  rw [register]
  split
  · rfl
  · rename_i missing
    exact absurd taken (lookup_eq_none_iff.mp missing)

theorem register_of_not_mem_names
    {index : Index} {d : Declaration} (free : d.name ∉ index.names) :
    index.register d = ⟨index.types ++ [d]⟩ := by
  rw [register, lookup_eq_none_iff.mpr free]

/-- What is registered keeps its place, and the first declaration of each name
that is not taken follows. -/
theorem types_registerAll (index : Index) (ds : List Declaration) :
    (index.registerAll ds).types =
      index.types ++ (firsts ds).filter (·.name ∉ index.names) := by
  induction ds generalizing index with
  | nil => simp [registerAll, firsts]
  | cons d ds ih =>
      rw [registerAll_cons, ih, firsts, List.filter_cons]
      by_cases taken : d.name ∈ index.names
      · rw [register_of_mem_names taken, if_neg (by simpa using taken),
          List.filter_filter]
        refine congrArg (index.types ++ ·) (List.filter_congr fun e _ => ?_)
        by_cases same : e.name = d.name
        · simp [same, taken]
        · simp [same]
      · rw [register_of_not_mem_names taken, if_pos (by simpa using taken),
          List.filter_filter, List.append_assoc, List.singleton_append]
        refine congrArg (index.types ++ d :: ·)
          (List.filter_congr fun e _ => ?_)
        by_cases same : e.name = d.name
        · simp [names, same]
        · simp [names, same, bne_iff_ne.mpr same]

/-- Registering again what is registered changes nothing. -/
theorem registerAll_registerAll (index : Index) (ds : List Declaration) :
    (index.registerAll ds).registerAll ds = index.registerAll ds := by
  have known : ∀ d ∈ firsts ds, d.name ∈ (index.registerAll ds).names := by
    intro d first
    rw [names, types_registerAll, List.map_append, List.mem_append]
    by_cases taken : d.name ∈ index.names
    · exact Or.inl taken
    · exact Or.inr (List.mem_map_of_mem
        (List.mem_filter.mpr ⟨first, by simpa using taken⟩))
  have nothing :
      (firsts ds).filter (·.name ∉ (index.registerAll ds).names) = [] :=
    List.filter_eq_nil_iff.mpr fun d first => by simpa using known d first
  have same := types_registerAll (index.registerAll ds) ds
  rw [nothing, List.append_nil] at same
  exact congrArg Index.mk same

/-! ## Requests -/

/-- Registers in place, one after another, what a source text declares.  There
is an index afterwards also if the text cannot be read. -/
def enter (text : String) (path : Option Files.FilePath) :
    ExceptT Fault (StateM Index) Unit := do
  let ds ← liftExcept (SourceFile.read text path)
  ds.forM fun d => modify (·.register d)

theorem run_forM_register (ds : List Declaration) (index : Index) :
    ((ds.forM fun d => modify (·.register d) :
        ExceptT Fault (StateM Index) Unit).run).run index =
      (.ok (), index.registerAll ds) := by
  induction ds generalizing index with
  | nil => rfl
  | cons d ds ih => exact ih (index.register d)

/-- In place the same happens as in `addSource`, and nothing if the text cannot
be read. -/
theorem run_enter (text : String) (path : Option Files.FilePath) (index : Index) :
    (enter text path).run.run index =
      match index.addSource text path with
      | .error fault => (.error fault, index)
      | .ok after => (.ok (), after) := by
  rw [enter, addSource]
  cases SourceFile.read text path with
  | error fault => rfl
  | ok ds => exact run_forM_register ds index

end Index

/-- A request to an index. -/
inductive Request where
  /-- Adds what a source text declares. -/
  | source (text : String) (path : Option Files.FilePath)
  | declaration (d : Declaration)

namespace Request

/-- Serves the request in place. -/
def serve : Request → ExceptT Fault (StateM Index) Unit
  | source text path => Index.enter text path
  | declaration d => modify (·.register d)

/-- The declarations that a request offers; a text that cannot be read offers
none. -/
def offers : Request → List Declaration
  | source text path => (SourceFile.read text path).toOption.getD []
  | declaration d => [d]

end Request

namespace Index

/-- The index after requests, whether they succeed or not. -/
def afterRequests (index : Index) (requests : List Request) : Index :=
  requests.foldl (fun index request => (request.serve.run.run index).2) index

theorem run_serve (request : Request) (index : Index) :
    (request.serve.run.run index).2 = index.registerAll request.offers := by
  cases request with
  | source text path =>
      rw [Request.serve, run_enter, addSource, Request.offers]
      cases SourceFile.read text path <;> rfl
  | declaration d => rfl

theorem registerAll_append (index : Index) (ds es : List Declaration) :
    index.registerAll (ds ++ es) = (index.registerAll ds).registerAll es :=
  List.foldl_append

/-- Requests register what they offer. -/
theorem afterRequests_eq (index : Index) (requests : List Request) :
    index.afterRequests requests =
      index.registerAll (requests.flatMap (·.offers)) := by
  induction requests generalizing index with
  | nil => rfl
  | cons request requests ih =>
      rw [List.flatMap_cons, registerAll_append, ← run_serve, ← ih]
      rfl

/-- After requests to an empty index it holds the first declaration of each
name that they offered. -/
theorem types_afterRequests (requests : List Request) :
    (afterRequests {} requests).types =
      firsts (requests.flatMap (·.offers)) := by
  rw [afterRequests_eq, types_registerAll, names, List.map_nil,
    List.nil_append]
  exact List.filter_eq_self.mpr fun d _ => by simp

end Index

/-- The name with backslashes before it. -/
def absoluteName (backslashes : Nat) (name : String) : String :=
  String.ofList (List.replicate backslashes '\\' ++ name.toList)

theorem plainName_absoluteName (backslashes : Nat) (name : String) :
    plainName (absoluteName backslashes name) = plainName name := by
  rw [plainName, Text.Pieces.dropLeading, absoluteName, String.toList_ofList,
    List.dropWhile_append_of_pos (by simp), plainName,
    Text.Pieces.dropLeading]

namespace Index

/-- Of what was registered under a name, the earliest is found. -/
theorem find?_afterRequests
    (requests : List Request) (backslashes : Nat) (name : String) :
    (afterRequests {} requests).find? (absoluteName backslashes name) =
      (requests.flatMap (·.offers)).find? (·.name == plainName name) := by
  rw [find?, plainName_absoluteName, lookup, types_afterRequests, find?_firsts]

theorem registered_afterRequests (requests : List Request) :
    (afterRequests {} requests).Registered := by
  rw [afterRequests_eq]
  exact Registered.empty.registerAll _

theorem plainName_name_of_mem_offers
    {request : Request}
    (plain : ∀ d, request = .declaration d → plainName d.name = d.name) :
    ∀ d ∈ request.offers, plainName d.name = d.name := by
  intro d offered
  cases request with
  | declaration e =>
      rw [List.mem_singleton.mp offered]
      exact plain e rfl
  | source text path =>
      rw [Request.offers] at offered
      cases read : SourceFile.read text path with
      | error fault =>
          rw [read] at offered
          cases offered
      | ok ds =>
          rw [read] at offered
          exact SourceFile.plainName_name_of_read read d offered

/-- If all declarations were registered under plain names, then what an index
holds is found under its own name. -/
theorem find?_name_afterRequests
    {requests : List Request}
    (plain : ∀ d, Request.declaration d ∈ requests →
      plainName d.name = d.name)
    {d : Declaration} (member : d ∈ (afterRequests {} requests).types)
    (backslashes : Nat) :
    (afterRequests {} requests).find? (absoluteName backslashes d.name) =
      some d := by
  have named : plainName d.name = d.name := by
    rw [types_afterRequests] at member
    obtain ⟨request, asked, offered⟩ :=
      List.mem_flatMap.mp (mem_of_mem_firsts member)
    exact plainName_name_of_mem_offers
      (fun e same => plain e (same ▸ asked)) d offered
  rw [find?, plainName_absoluteName, named,
    lookup_eq_some_iff (registered_afterRequests requests).distinct]
  exact ⟨member, rfl⟩

/--
A source text that cannot be read leaves an index as it is.  One that can be
read appends the first declaration of each name that is not taken, and adding it
again changes nothing.  So after any requests no two registered declarations
share a name, and under a name, with any number of backslashes before it, the
earliest declaration of that name is found.
-/
theorem requests_keep_firsts
    (index : Index) (text : String) (path : Option Files.FilePath) :
    (enter text path).run.run index =
        (match index.addSource text path with
        | .error fault => (.error fault, index)
        | .ok after => (.ok (), after)) ∧
      (∀ after, index.addSource text path = .ok after →
        ∃ ds, SourceFile.read text path = .ok ds ∧
          after.types =
            index.types ++ (firsts ds).filter (·.name ∉ index.names) ∧
          after.addSource text path = .ok after) ∧
      ∀ requests : List Request,
        (afterRequests {} requests).names.Nodup ∧
        (∀ (backslashes : Nat) (name : String),
          (afterRequests {} requests).find? (absoluteName backslashes name) =
            (requests.flatMap (·.offers)).find? (·.name == plainName name)) ∧
        ((∀ d, Request.declaration d ∈ requests → plainName d.name = d.name) →
          ∀ d ∈ (afterRequests {} requests).types, ∀ backslashes : Nat,
            (afterRequests {} requests).find?
              (absoluteName backslashes d.name) = some d) := by
  refine ⟨run_enter text path index, ?_, fun requests => ⟨?_,
    find?_afterRequests requests, fun plain d member =>
      find?_name_afterRequests plain member⟩⟩
  · intro after added
    obtain ⟨ds, read, rfl⟩ := exists_registerAll_of_addSource added
    refine ⟨ds, read, types_registerAll index ds, ?_⟩
    rw [addSource, read]
    exact congrArg Except.ok (registerAll_registerAll index ds)
  · rw [names, types_afterRequests]
    exact nodup_names_firsts _

/-- A text that declares a class `A` twice. -/
def twiceA : String :=
  "<?php class A\x7b\x7d interface B\x7b\x7d class A extends B\x7b\x7d"

/-- Requests of which the second fails and the third comes too late. -/
def lateRequests : List Request :=
  [.source twiceA none, .source "<?php class C\x7b\x7d '" none,
    .declaration (.named "\\A" .enumType),
    .declaration (.named "D" .traitType)]

theorem requests_keep_firsts_twiceA :
    ∃ after, addSource {} twiceA none = .ok after ∧
      after.names = ["A", "B"] ∧
      after.addSource twiceA none = .ok after ∧
      (afterRequests {} lateRequests).names = ["A", "B", "D"] ∧
      ∃ d, (afterRequests {} lateRequests).find? (absoluteName 2 "A") =
          some d ∧
        d.kind = .classType ∧ d.parent = none := by
  have evaluated :
      (addSource {} twiceA none).toOption.map (·.names) = some ["A", "B"] := by
    decide +kernel
  cases added : addSource {} twiceA none with
  | error fault =>
      rw [added] at evaluated
      cases evaluated
  | ok after =>
      obtain ⟨-, adding, requested⟩ := requests_keep_firsts {} twiceA none
      obtain ⟨ds, -, -, again⟩ := adding after added
      obtain ⟨-, -, named⟩ := requested lateRequests
      have plain : ∀ d, Request.declaration d ∈ lateRequests →
          plainName d.name = d.name := by
        simp only [lateRequests, List.mem_cons, List.not_mem_nil, or_false,
          reduceCtorEq, false_or, Request.declaration.injEq]
        rintro d (rfl | rfl) <;> decide +kernel
      have found : ∃ d ∈ (afterRequests {} lateRequests).types,
          d.name = "A" ∧ d.kind = .classType ∧ d.parent = none := by
        decide +kernel
      obtain ⟨d, member, name, kind, parent⟩ := found
      refine ⟨after, rfl, ?_, again, by decide +kernel, d, ?_, kind, parent⟩
      · rw [added] at evaluated
        exact Option.some.inj evaluated
      · rw [← name]
        exact named plain d member 2

end Index

end BusReference.Php
