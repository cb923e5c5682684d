import BusReference.CommandLine.Run

/-!
# The program

The program on a real file system. What a run can look at is read first, the run is computed, and
then what it changed is written back. The runtime knows names as texts only, so a file with another
name is not seen here.
-/

namespace BusReference.Disk

open BusReference.Files

/-- The path of a location on the disk. -/
def pathOf (place : Location) : String :=
  if place.isEmpty then "/" else Path.ofSegments ("" :: place)

/-- The file system with the given node at a location, which keeps its rank if it is known. -/
def note (fs : FileSystem) (place : Location) (node : Node) : FileSystem :=
  if fs.get? place = some node then fs else fs.put place node

/-- Reads what stands at a location, with everything below a directory. -/
partial def readTree (fs : FileSystem) (place : Location) : IO FileSystem := do
  let path := System.mkFilePath [pathOf place]
  if ← path.isDir then
    let mut fs := note fs place .directory
    for entry in ← path.readDir do
      fs ← readTree fs (place ++ [.text entry.fileName])
    return fs
  else if ← path.pathExists then
    return note fs place (.file (← IO.FS.readBinFile path))
  else
    return fs

/-- Reads what stands on the way to the end of a path, and everything at its end. -/
def readPath (fs : FileSystem) (path : String) : IO FileSystem := do
  let mut fs := fs
  let mut place := fs.origin path
  for segment in Path.segments path do
    if !Path.isIdle segment then
      place := if segment = ".." then place.dropLast else place ++ [segment]
    let found := System.mkFilePath [pathOf place]
    if ← found.isDir then
      fs := note fs place .directory
    else if ← found.pathExists then
      return ← readTree fs place
    else
      return fs
  readTree fs place

/-- A path beside the given one at which nothing stands yet. -/
partial def draftBeside (path : String) (number : Nat) : IO String := do
  let draft := path ++ ".draft" ++ String.ofList (Nat.toDigits 10 number)
  if ← (System.mkFilePath [draft]).pathExists then draftBeside path (number + 1) else return draft

/-- Writes a file under another name first, so that its place never holds a part of it. -/
def replaceFile (path : String) (content : ByteArray) : IO Unit := do
  let draft ← draftBeside path 0
  IO.FS.writeBinFile draft content
  IO.FS.rename draft path

/-- Brings the disk from one state of a file system to another. What is gone is removed from the
inside out, and what is new is written from the outside in. -/
def apply (old new : FileSystem) : IO Unit := do
  for (place, node) in old.entries.reverse do
    if (new.get? place).isNone then
      match node with
      | .directory => IO.FS.removeDirAll (pathOf place)
      | .file _ => IO.FS.removeFile (pathOf place)
  for (place, node) in new.entries do
    if old.get? place ≠ some node then
      match node with
      | .directory => IO.FS.createDirAll (pathOf place)
      | .file content => replaceFile (pathOf place) content

/-- Asks on the terminal whether a directory may be removed. -/
def confirm (directory : String) : IO (Except Error Bool) := do
  let input ← IO.getStdin
  if !(← input.isTty) then
    return .error (.noAnswer "Failed to read confirmation: IO error: not a terminal")
  IO.eprint
    ("All data in directory \"" ++ directory ++ "\" will be lost. Proceed? [y/N] ")
  let reply ← input.getLine
  return .ok (reply.toLower.startsWith "y")

end BusReference.Disk

open BusReference

/-- Runs the program on the words of its command line. -/
def main (words : List String) : IO UInt32 := do
  let here ← IO.currentDir
  let start : Files.FileSystem :=
    { workingDirectory := (Files.Path.segments here.toString).filter (!Files.Path.isIdle ·) }
  let directory := CommandLine.configDirectory (← IO.getEnv "XDG_CONFIG_HOME") (← IO.getEnv "HOME")
  let mut files := start
  for path in CommandLine.configFile directory words do
    files ← Disk.readPath files path
  for path in CommandLine.consulted files directory words do
    files ← Disk.readPath files path
  let report ←
    match CommandLine.run files directory words with
    | .done report => pure report
    | .ask destination resume => do
      pure (resume (← Disk.confirm destination))
  Disk.apply files report.files
  IO.print report.output
  for line in report.log do
    IO.eprintln line.text
  return UInt32.ofNat report.exitCode
