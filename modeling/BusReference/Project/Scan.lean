import BusReference.Error
import BusReference.Files.Walk
import BusReference.Php.Index

/-!
# Scanning directories

The index of the types that the source files below directories declare. The files of a directory
come in the order of its walk.
-/

namespace BusReference

open BusReference.Files
open BusReference.Php

/-- How a scan went. -/
structure Scan where
  /-- The index with the types of all files that were read. -/
  index : Index
  /-- The number of files that were read. -/
  count : Nat := 0
  /-- The declarations that came too late. -/
  conflicts : List Conflict := []
  /-- The reason why the scan ended early. -/
  failure : Option Error := none
  deriving DecidableEq, Repr

namespace Scan

/-- The path to a file below a root. -/
def pathBelow (root : FilePath) (way : List Name) : FilePath := way.foldl FilePath.join root

/-- The declarations of the file at a location, which the given path names. -/
def readFile (fs : FileSystem) (path : FilePath) (place : Location) :
    Except Error (List Declaration) :=
  match fs.readAt place with
  | .error reason => .error (.sourceNotRead path.shown reason)
  | .ok source =>
    match SourceFile.read source (some path) with
    | .error fault => .error (.malformedSource (some path.shown) fault)
    | .ok declarations => .ok declarations

/-- Registers the types of files one after another, up to the first file that cannot be read. -/
def files (fs : FileSystem) (root : FilePath) (place : Location) (index : Index) :
    List (List Name) → Scan
  | [] => { index }
  | way :: ways =>
    match readFile fs (pathBelow root way) (place ++ way) with
    | .error error => { index, failure := some error }
    | .ok declarations =>
      let scan := files fs root place (index.registerAll declarations) ways
      { scan with
        count := scan.count + 1
        conflicts := index.conflicts declarations ++ scan.conflicts }

/-- Registers the types of all source files below a root. -/
def directory (fs : FileSystem) (index : Index) (root : FilePath) : Scan :=
  match fs.locate root with
  | .error _ => { index, failure := some (.rootNotDirectory root.shown) }
  | .ok place =>
    match fs.get? place with
    | some .directory => files fs root place index (fs.sourcesBelow place)
    | _ => { index, failure := some (.rootNotDirectory root.shown) }

/-- Registers the types of all source files below the roots, up to the first failure. -/
def directories (fs : FileSystem) (index : Index) : List FilePath → Scan
  | [] => { index }
  | root :: roots =>
    let first := directory fs index root
    match first.failure with
    | some _ => first
    | none =>
      let others := directories fs first.index roots
      { others with
        count := first.count + others.count
        conflicts := first.conflicts ++ others.conflicts }

end Scan

end BusReference
