import BusReference.Files.Path

/-!
# File systems

The directories and files of a system at one moment. A place is named by the names on the way to
it from the root; a path leads to a place when it is followed from the root or from the working
directory.
-/

namespace BusReference.Files

/-- What stands at a place. -/
inductive Node where
  | directory
  | file (content : ByteArray)

instance : DecidableEq Node
  | .directory, .directory => .isTrue rfl
  | .directory, .file _ => .isFalse nofun
  | .file _, .directory => .isFalse nofun
  | .file a, .file b =>
    match ByteArray.instDecidableEq a b with
    | .isTrue same => .isTrue (congrArg Node.file same)
    | .isFalse differ => .isFalse fun same => differ (Node.file.inj same)

/-- A place in a file system: the names on the way from the root, which has the empty location. -/
abbrev Location := List Name

/-- Everything that a file system holds below its root, each place with what stands there. -/
structure FileSystem where
  entries : List (Location × Node) := []
  /-- The place from which relative paths are followed. -/
  workingDirectory : Location := []
  deriving DecidableEq

/-- A reason why the operating system refuses to act on a path. -/
inductive SystemError where
  | missing
  | alreadyThere
  | notDirectory
  | isDirectory
  | invalidArgument
  deriving DecidableEq, Repr

/-- The operating system's text for an error. -/
def SystemError.message : SystemError → String
  | missing => "No such file or directory (os error 2)"
  | alreadyThere => "File exists (os error 17)"
  | notDirectory => "Not a directory (os error 20)"
  | isDirectory => "Is a directory (os error 21)"
  | invalidArgument => "Invalid argument (os error 22)"

/-- A reason why a file cannot be read as text. -/
inductive ReadError where
  | system (error : SystemError)
  | notText
  deriving DecidableEq, Repr

/-- The message for a file that cannot be read as text. -/
def ReadError.message : ReadError → String
  | system error => error.message
  | notText => "stream did not contain valid UTF-8"

namespace FileSystem

/-- What stands at a location. The root is always a directory. -/
def get? (fs : FileSystem) (place : Location) : Option Node :=
  if place = [] then some .directory else (fs.entries.find? (·.1 == place)).map (·.2)

/-- Goes from a directory to what a segment names in it. -/
def step (fs : FileSystem) (place : Location) (segment : Name) : Except SystemError Location :=
  match fs.get? place with
  | none => .error .missing
  | some (.file _) => .error .notDirectory
  | some .directory =>
    if Path.isIdle segment then .ok place
    else if segment = ".." then .ok place.dropLast
    else if (fs.get? (place ++ [segment])).isSome then .ok (place ++ [segment])
    else .error .missing

/-- Follows segments from a place. -/
def follow (fs : FileSystem) (place : Location) : List Name → Except SystemError Location
  | [] => .ok place
  | segment :: segments =>
    match fs.step place segment with
    | .error error => .error error
    | .ok next => fs.follow next segments

/-- The place from which a path is followed. -/
def origin (fs : FileSystem) (path : FilePath) : Location :=
  if path.isAbsolute then [] else fs.workingDirectory

/-- The existing place to which a path leads. The empty path leads nowhere. -/
def locate (fs : FileSystem) (path : FilePath) : Except SystemError Location :=
  if path.isEmpty then .error .missing else fs.follow (fs.origin path) path.segments

/-- What stands at the end of a path. -/
def node? (fs : FileSystem) (path : FilePath) : Option Node :=
  match fs.locate path with
  | .error _ => none
  | .ok place => fs.get? place

/-- A path leads to something. -/
def pathExists (fs : FileSystem) (path : FilePath) : Bool := (fs.node? path).isSome

/-- A path leads to a directory. -/
def isDirectory (fs : FileSystem) (path : FilePath) : Bool := fs.node? path == some .directory

/-- The text of the file at a location. -/
def readAt (fs : FileSystem) (place : Location) : Except ReadError String :=
  match fs.get? place with
  | none => .error (.system .missing)
  | some .directory => .error (.system .isDirectory)
  | some (.file content) =>
    match String.fromUTF8? content with
    | none => .error .notText
    | some text => .ok text

/-- The text of the file at the end of a path. -/
def readText (fs : FileSystem) (path : FilePath) : Except ReadError String :=
  match fs.locate path with
  | .error error => .error (.system error)
  | .ok place => fs.readAt place

/-- The name of a location directly in the given directory. -/
def nameIn? (directory : Location) (place : Location) : Option Name :=
  if place.dropLast = directory then place.getLast? else none

/-- The names in a directory, in the ascending order of their bytes. -/
def names (fs : FileSystem) (directory : Location) : List Name :=
  ((fs.entries.filterMap fun (place, _) => nameIn? directory place).eraseDups).mergeSort
    fun a b => decide (a ≤ b)

end FileSystem

end BusReference.Files
