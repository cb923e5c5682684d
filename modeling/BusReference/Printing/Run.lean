import BusReference.Printing.Page

/-!
# Printing

Writing the pages of the reference into a directory. A page whose file exists is kept as it is,
unless the printing is forced: then the directory is removed before the first page is written.
-/

namespace BusReference.Printing

open BusReference.Files

/-- What makes the text of a page out of a template and its values. -/
abbrev Renderer := Template → Template.Value → Except Error String

/-- How a run of the printing went. -/
structure Run where
  /-- The file system after the run. -/
  files : FileSystem
  /-- The paths of the pages that were written. -/
  written : List String := []
  /-- The paths of the pages that existed and were kept. -/
  skipped : List String := []
  /-- The pages whose texts were made. -/
  rendered : List Page := []
  /-- The reason why the run ended early. -/
  failure : Option Error := none

/-- A run that fails before it writes a page. -/
def Run.refuse (fs : FileSystem) (error : Error) : Run := { files := fs, failure := some error }

/-- Writes pages one after another up to the first failure. Pages that exist are skipped, unless
the printing is forced. -/
def writePages (render : Renderer) (force : Bool) (fs : FileSystem) : List Page → Run
  | [] => { files := fs }
  | page :: pages =>
    if !force && fs.pathExists page.path then
      let run := writePages render force fs pages
      { run with skipped := page.path :: run.skipped }
    else
      match render page.template page.context with
      | .error error => { files := fs, rendered := [page], failure := some error }
      | .ok text =>
        match fs.write page.path text with
        | (fs, .error error) =>
          { files := fs, rendered := [page], failure := some (.ofWrite error) }
        | (fs, .ok ()) =>
          let run := writePages render force fs pages
          { run with written := page.path :: run.written, rendered := page :: run.rendered }

/-- A version is there if the layout needs one. -/
def checkVersion (e : Edition) : Except Error Unit :=
  if e.layout.requiresVersion && e.version.isNone then .error .noVersion else .ok ()

/-- The first two of the domains that share a slug, if some do; none of the domains that were
`seen` before share one. -/
def sharedSlug? (seen : List String) : List String → Option (String × String)
  | [] => none
  | domain :: domains =>
    match seen.find? fun other => domainSlug other == domainSlug domain with
    | some other => some (other, domain)
    | none => sharedSlug? (domain :: seen) domains

/-- No two domains with definitions share a slug. -/
def checkSlugs (g : Grouping) : Except Error Unit :=
  match sharedSlug? [] (g.inhabited.map (·.1)) with
  | some (first, second) => .error (.sharedSlug first second (domainSlug second))
  | none => .ok ()

/-- Prints the pages of a grouping into a directory. -/
def print (render : Renderer) (e : Edition) (g : Grouping) (destination : String) (force : Bool)
    (fs : FileSystem) : Run :=
  match checkVersion e with
  | .error error => .refuse fs error
  | .ok () =>
    match checkSlugs g with
    | .error error => .refuse fs error
    | .ok () =>
      let pages := Page.all e destination g
      if force then
        match fs.removeTree destination with
        | (fs, .error error) => .refuse fs (.treeNotRemoved destination error)
        | (fs, .ok ()) => writePages render force fs pages
      else writePages render force fs pages

end BusReference.Printing
