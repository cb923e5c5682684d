import BusReference.Files.FileSystem

/-!
# Changes of a file system

Creating directories, replacing files and removing trees. Every change returns the file system
after it, also where it fails half-way.
-/

namespace BusReference.Files.FileSystem

/-- The file system with the given node at a location. -/
def put (fs : FileSystem) (place : Location) (node : Node) : FileSystem :=
  { fs with entries := fs.entries.filter (·.1 != place) ++ [(place, node)] }

/-- The file system without a location and everything below it. -/
def erase (fs : FileSystem) (place : Location) : FileSystem :=
  { fs with entries := fs.entries.filter fun entry => !place.isPrefixOf entry.1 }

/-- The file system without anything below a location. -/
def clear (fs : FileSystem) (place : Location) : FileSystem :=
  { fs with entries := fs.entries.filter fun entry =>
      entry.1 == place || !place.isPrefixOf entry.1 }

/-- Follows segments from a directory and creates the directories that are missing on the way.
A file in the way is met by the first attempt to create the whole path, or, once a directory has
been `created`, by the attempt to create a directory in its place. -/
def createFrom (fs : FileSystem) (created : Bool) (place : Location) :
    List Name → FileSystem × Except SystemError Location
  | [] => (fs, .ok place)
  | segment :: segments =>
    if Path.isIdle segment then fs.createFrom created place segments
    else if segment = ".." then fs.createFrom created place.dropLast segments
    else
      let next := place ++ [segment]
      match fs.get? next with
      | some .directory => fs.createFrom created next segments
      | some (.file _) =>
        (fs, .error (if created || segments.isEmpty then .alreadyThere else .notDirectory))
      | none => (fs.put next .directory).createFrom true next segments

/-- Creates the directory at the end of a path with all directories on the way to it. -/
def createDirectories (fs : FileSystem) (path : String) :
    FileSystem × Except SystemError Location :=
  fs.createFrom false (fs.origin path) (Path.segments path)

/-- Puts a file with the given text into a directory, in place of a file of that name. -/
def replaceFile (fs : FileSystem) (directory : Location) (name text : String) :
    FileSystem × Except SystemError Unit :=
  let place := directory ++ [.text name]
  match fs.get? place with
  | some .directory => (fs, .error .isDirectory)
  | _ => (fs.put place (.file text.toUTF8), .ok ())

/-- A reason why a file cannot be written. -/
inductive WriteError where
  | notCreated (directory : String) (error : SystemError)
  | notWritten (path : String) (error : SystemError)
  deriving DecidableEq, Repr

/-- Writes a text to the file at the end of a path, in place of what that file held, and creates
the directories that are missing on the way. -/
def write (fs : FileSystem) (path text : String) : FileSystem × Except WriteError Unit :=
  match fs.createDirectories (Path.parent path) with
  | (fs, .error error) => (fs, .error (.notCreated (Path.parent path) error))
  | (fs, .ok directory) =>
    match fs.replaceFile directory (Path.fileName path) text with
    | (fs, .error error) => (fs, .error (.notWritten path error))
    | (fs, .ok ()) => (fs, .ok ())

/-- The last segment of a path that is not empty. -/
def lastName? (path : String) : Option Name :=
  (Path.segments path).reverse.find? (· != "")

/-- Removes the directory at the end of a path with everything in it; if there is nothing, nothing
changes. A path that ends in `.` or `..` names no entry of a directory that could be removed: only
what stands below is. -/
def removeTree (fs : FileSystem) (path : String) : FileSystem × Except SystemError Unit :=
  match fs.locate path with
  | .error .missing => (fs, .ok ())
  | .error error => (fs, .error error)
  | .ok place =>
    match fs.get? place with
    | some .directory =>
      match lastName? path with
      | some (.text ".") => (fs.clear place, .error .invalidArgument)
      | some (.text "..") => (fs.clear place, .ok ())
      | _ => (fs.erase place, .ok ())
    | _ => (fs, .error .notDirectory)

end BusReference.Files.FileSystem
