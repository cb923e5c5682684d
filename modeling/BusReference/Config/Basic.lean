import BusReference.Printing.Layout

/-!
# Configuration

The settings of a project: where its sources and its documentation are, and how the reference is
printed.
-/

namespace BusReference

open BusReference.Files

/-- Settings of the documentation project. -/
structure DocsSettings where
  /-- The root of the documentation project. -/
  path : Option String := none
  /-- The folder of the reference inside the documentation project. -/
  cqrsFolder : String := "src/content/reference/domain/references"
  layout : Layout := .nested
  version : Option String := none
  deriving DecidableEq, Repr

/-- The directory of the reference, if the documentation project is known. -/
def DocsSettings.destination (docs : DocsSettings) : Option String :=
  docs.path.map fun root => Path.join root (Text.Pieces.dropLeading '/' docs.cqrsFolder)

/-- Settings of the sources. -/
structure SourceSettings where
  /-- The directories with source files. -/
  roots : List String := []
  /-- The name of a known domain pattern or a regular expression. -/
  domainPattern : String := "core"
  /-- The handler manifest that is used in place of discovery. -/
  manifest : Option String := none
  deriving DecidableEq, Repr

/-- The settings of a project. -/
structure Config where
  docs : DocsSettings := {}
  sources : SourceSettings := {}
  deriving DecidableEq, Repr

end BusReference
