import BusReference.Proofs.Php.Requests

/-!
# The path of a source

The path of a source only labels what is read from its text: reading with a
path gives the declarations that reading without one gives, each with that path,
or the same fault.  So adding the text of a file to an index adds the types that
adding the text alone does, labelled with the file.
-/

namespace BusReference.Php

/-- The declaration as one of the file at a path. -/
def Declaration.at (d : Declaration) (path : Files.FilePath) : Declaration :=
  { d with path := some path }

namespace SourceFile

/-- What is read where the source has a path. -/
def Item.at (path : Files.FilePath) : Item → Item
  | .declaration d rest => .declaration (d.at path) rest
  | .other scope pending rest => .other scope pending rest

section Path

variable
    {source : String} {path : Files.FilePath} {scope : Scope}
    {pending : Pending} {previous : Option Token} {ts : List Token}

theorem readDeclaration_path (kind : TypeKind) (short : String) :
    readDeclaration ⟨some path, source⟩ scope pending kind short ts =
      (readDeclaration ⟨none, source⟩ scope pending kind short ts).map
        fun (d, rest) => (d.at path, rest) := by
  rw [readDeclaration, readDeclaration]
  dsimp only
  split
  · rfl
  · split
    · rfl
    · rfl

theorem readWord_path (word : String) :
    readWord ⟨some path, source⟩ scope pending previous word ts =
      (readWord ⟨none, source⟩ scope pending previous word ts).map
        (Item.at path) := by
  unfold readWord
  split
  · rfl
  · rfl
  · rfl
  · rfl
  · split
    · rfl
    · rfl
  · cases skipFunction ts <;> rfl
  · split
    · split
      · rw [readDeclaration_path]
        rename_i kind short rest _ _
        cases readDeclaration ⟨none, source⟩ scope pending kind short rest <;>
          rfl
      · rfl
    · rfl

theorem readItem_path (t : Token) :
    readItem ⟨some path, source⟩ scope pending previous t ts =
      (readItem ⟨none, source⟩ scope pending previous t ts).map
        (Item.at path) := by
  cases t with
  | name word => exact readWord_path word.toLower
  | _ => rfl

theorem readFrom_path :
    readFrom ⟨some path, source⟩ scope pending previous ts =
      (readFrom ⟨none, source⟩ scope pending previous ts).map
        (·.map (·.at path)) := by
  fun_induction readFrom ⟨none, source⟩ scope pending previous ts with
  | case1 => rw [readFrom]; rfl
  | case2 scope pending previous t ts fault failed =>
      rw [readFrom_cons, readItem_path, failed]
      rfl
  | case3 scope pending previous t ts d rest item shorter ih =>
      rw [readFrom_cons, readItem_path, item]
      dsimp only [Except.map, Item.at]
      rw [ih]
      cases readFrom ⟨none, source⟩ scope {} (lastBefore (t :: ts) rest) rest <;>
        rfl
  | case4 scope pending previous t ts later waiting rest item shorter ih =>
      rw [readFrom_cons, readItem_path, item]
      exact ih

end Path

/-- Reading a source with a path labels what is read without one. -/
theorem read_path (source : String) (path : Files.FilePath) :
    read source (some path) = (read source none).map (·.map (·.at path)) := by
  rw [read, read]
  split
  · rfl
  · exact readFrom_path

end SourceFile

theorem firsts_map_at (path : Files.FilePath) (ds : List Declaration) :
    firsts (ds.map (·.at path)) = (firsts ds).map (·.at path) := by
  induction ds with
  | nil => rfl
  | cons d ds ih =>
      rw [List.map_cons, firsts, firsts, ih, List.map_cons, List.filter_map]
      rfl

namespace Index

/-- Adds what a text declares.  The types that are new to the index are of the
file at the path. -/
def addAt (index : Index) (path : Files.FilePath) (text : String) :
    Except Fault Index :=
  (index.addSource text none).map fun next =>
    ⟨index.types ++ (next.types.drop index.types.length).map (·.at path)⟩

/-- To add a source with a path is to add its text and to label what is new. -/
theorem addSource_path
    (index : Index) (text : String) (path : Files.FilePath) :
    index.addSource text (some path) = index.addAt path text := by
  rw [addAt, addSource, addSource, SourceFile.read_path]
  cases SourceFile.read text none with
  | error fault => rfl
  | ok ds =>
      have types : (index.registerAll (ds.map (·.at path))).types =
          index.types ++
            (((index.registerAll ds).types).drop index.types.length).map
              (·.at path) := by
        rw [types_registerAll, types_registerAll, List.drop_left,
          firsts_map_at, List.filter_map]
        rfl
      exact congrArg (fun ds => Except.ok (Index.mk ds)) types

end Index

end BusReference.Php
