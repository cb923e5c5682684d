import BusReference.Files.Name

/-!
# Paths

Paths name places in a file system by names with slashes between them. A path is kept as it was
written: empty segments, `.` and `..` keep their places and only mean something when the path is
followed. Most paths are texts; a path to a file that was found may have names that are none.
-/

namespace BusReference.Files

namespace Path

/-- What stands between the slashes of a path. An absolute path has an empty first segment. -/
def segments (path : String) : List Name :=
  (Text.Pieces.splitOn '/' path.toList).map fun piece => .text (String.ofList piece)

theorem segments_ne_nil (path : String) : segments path ≠ [] := by
  unfold segments
  cases path.toList with
  | nil => simp [Text.Pieces.splitOn]
  | cons c cs =>
    rw [Text.Pieces.splitOn]
    split
    · simp
    · split <;> simp

/-- The path of the given segments. -/
def ofSegments (segments : List Name) : String :=
  String.intercalate "/" (segments.map Name.shown)

/-- An absolute path starts with a slash. -/
def isAbsolute (path : String) : Bool :=
  path.toList.head? == some '/'

/-- The slash to put between a path and what comes below it. -/
def separatorAfter (base : String) : String :=
  if base.toList.getLast?.all (· == '/') then "" else "/"

/-- A path seen from a base. An absolute path does not depend on the base. -/
def join (base path : String) : String :=
  if isAbsolute path then path else base ++ separatorAfter base ++ path

/-- The last segment of a path. -/
def fileName (path : String) : String :=
  String.ofList (Text.Pieces.afterLast '/' path.toList)

/-- The segment stays at the place where it is met. -/
def isIdle (segment : Name) : Bool :=
  segment == "" || segment == "."

/-- The path without its last segment and without idle segments before that one. A first segment
is kept: it tells absolute paths from relative ones. -/
def parent (path : String) : String :=
  match (segments path).dropLast with
  | [] => ""
  | first :: others =>
    match (others.reverse.dropWhile isIdle).reverse with
    | [] => if first = "" then "/" else first.shown
    | kept => ofSegments (first :: kept)

end Path

/-- A path whose names need not be texts. -/
structure FilePath where
  segments : List Name
  nonempty : segments ≠ []
  deriving DecidableEq, Repr

namespace FilePath

/-- The path that a text stands for. -/
def ofText (path : String) : FilePath := ⟨Path.segments path, Path.segments_ne_nil path⟩

instance : Coe String FilePath := ⟨ofText⟩

/-- The text that is shown for a path. -/
def shown (path : FilePath) : String := Path.ofSegments path.segments

instance : CoeTail FilePath String := ⟨shown⟩

/-- The empty path is made of an empty segment. -/
def isEmpty (path : FilePath) : Bool := path.segments == [.text ""]

/-- An absolute path has a segment behind an empty one. -/
def isAbsolute (path : FilePath) : Bool :=
  path.segments.head? == some (.text "") && !path.isEmpty

/-- The segments in front of a name that is put behind a path. -/
def stem (base : FilePath) : List Name :=
  if base.segments.getLast? = some (.text "") then base.segments.dropLast else base.segments

/-- The path to what has the given name below a base. -/
def join (base : FilePath) (name : Name) : FilePath := ⟨base.stem ++ [name], by simp⟩

end FilePath

end BusReference.Files
