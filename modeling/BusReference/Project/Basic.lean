import BusReference.Config.Basic
import BusReference.HandlerMap.Manifest
import BusReference.Listing
import BusReference.Printing.Run
import BusReference.Project.Scan

/-!
# Projects

A project is all that definitions are read from: the index of its types, its domain pattern and its
handler map. It is loaded from its settings, and its definitions are listed or printed.
-/

namespace BusReference

open BusReference.Files
open BusReference.Php (Conflict Index)

/-- A remark about the sources that does not stop anything. -/
inductive Warning where
  | conflict (c : Conflict)
  /-- A handler class does not tell what it handles. -/
  | untypedHandler (name : String)
  deriving DecidableEq, Repr

/-- The text of a warning. -/
def Warning.message : Warning → String
  | conflict c => c.message
  | untypedHandler name =>
    "Handler " ++ name ++ " has no typed " ++ Definition.handleMethod ++ "() parameter, skipping"

/-- All that definitions are read from. -/
structure Project where
  index : Index
  pattern : DomainPattern
  handlers : HandlerMap
  deriving DecidableEq, Repr

namespace Project

/-- The handler map of a manifest file. -/
def readManifest (fs : FileSystem) (path : String) : Except Error HandlerMap :=
  match fs.readText path with
  | .error reason => .error (.manifestNotRead path reason)
  | .ok text =>
    match HandlerMap.Manifest.parse? text with
    | none => .error .malformedManifestFile
    | some members => .ok (.ofList members)

/-- The handler map of a project, with the warnings about handlers that were passed over. -/
def loadHandlers (fs : FileSystem) (manifest : Option String) (index : Index) :
    List Warning × Except Error HandlerMap :=
  match manifest with
  | some path => ([], readManifest fs path)
  | none => ((HandlerMap.untyped index).map .untypedHandler, .ok (HandlerMap.discover index))

/-- Loads a project, with the warnings that arise on the way. -/
def load (fs : FileSystem) (settings : SourceSettings) : List Warning × Except Error Project :=
  if settings.roots.isEmpty then ([], .error .noRoots)
  else
    match DomainPattern.ofSetting settings.domainPattern with
    | .error error => ([], .error error)
    | .ok pattern =>
      let scan := Scan.directories fs {} (settings.roots.map FilePath.ofText)
      let warnings := scan.conflicts.map Warning.conflict
      match scan.failure with
      | some error => (warnings, .error error)
      | none =>
        match loadHandlers fs settings.manifest scan.index with
        | (more, .error error) => (warnings ++ more, .error error)
        | (more, .ok handlers) => (warnings ++ more, .ok ⟨scan.index, pattern, handlers⟩)

/-- The definitions of a project by domain. -/
def grouping (p : Project) : Except Error Grouping :=
  Grouping.ofHandlers p.index p.pattern p.handlers

/-- The text that lists all definitions of a project. -/
def listing (p : Project) : Except Error String :=
  (Grouping.collectAll (Definition.read p.index p.pattern) p.handlers).map Listing.text

/-- Writes the listing of a project. An empty listing needs no writing. -/
def list (p : Project) (write : String → Except String Unit) : Except Error Unit :=
  match p.listing with
  | .error error => .error error
  | .ok text =>
    if text.isEmpty then .ok ()
    else
      match write text with
      | .error reason => .error (.listingNotWritten reason)
      | .ok () => .ok ()

end Project

/-- What came of printing a project. -/
inductive PrintOutcome where
  | printed (written skipped : List String)
  /-- The destination was not to be removed. -/
  | cancelled
  deriving DecidableEq, Repr

/-- What came of printing a project, with the file system after it. -/
structure PrintResult where
  files : FileSystem
  outcome : Except Error PrintOutcome

/-- The result of a run of the printing. -/
def PrintResult.ofRun (run : Printing.Run) : PrintResult where
  files := run.files
  outcome :=
    match run.failure with
    | some error => .error error
    | none => .ok (.printed run.written run.skipped)

/-- A computation that may ask once whether a directory may be removed. -/
inductive Confirmed (α : Type) where
  | done (result : α)
  /-- Asks about the directory and goes on with the answer, or with the reason why there is none. -/
  | ask (directory : String) (resume : Except Error Bool → α)

namespace Confirmed

/-- The result of a computation whose question is answered as given. -/
def answer {α : Type} (confirm : String → Except Error Bool) : Confirmed α → α
  | done result => result
  | ask directory resume => resume (confirm directory)

/-- Changes the result of a computation. -/
def map {α β : Type} (f : α → β) : Confirmed α → Confirmed β
  | done result => done (f result)
  | ask directory resume => ask directory fun reply => f (resume reply)

/-- Whether the computation asks. -/
def asks {α : Type} : Confirmed α → Bool
  | done _ => false
  | ask .. => true

end Confirmed

namespace Project

/-- Goes on with printing after the answer to the question. -/
def resumePrint (e : Edition) (g : Grouping) (destination : String) (force : Bool)
    (fs : FileSystem) : Except Error Bool → PrintResult
  | .error error => ⟨fs, .error error⟩
  | .ok false => ⟨fs, .ok .cancelled⟩
  | .ok true => .ofRun (Printing.print Template.render e g destination force fs)

/-- Prints the definitions of a project into a directory. If the directory is to be removed and is
there, this asks first. -/
def print (p : Project) (docs : DocsSettings) (destination : String) (force : Bool)
    (fs : FileSystem) : Confirmed PrintResult :=
  let e := Edition.of docs.layout docs.version
  match Printing.checkVersion e with
  | .error error => .done ⟨fs, .error error⟩
  | .ok () =>
    match p.grouping with
    | .error error => .done ⟨fs, .error error⟩
    | .ok g =>
      if force && fs.pathExists destination then
        .ask destination (resumePrint e g destination force fs)
      else .done (resumePrint e g destination force fs (.ok true))

end Project

end BusReference
