import BusReference.Definition.Grouping
import BusReference.Printing.Layout
import BusReference.Template.Value
import BusReference.Template.Pages

/-!
# Pages of the reference

The pages that a grouping of definitions gives rise to, each with its place, its template and the
values for the template. Every domain page is followed by the pages of its definitions, commands
first; the page that links to the domains comes last.
-/

namespace BusReference

open BusReference.Template (Value)

/-- How the reference is printed. -/
structure Edition where
  layout : Layout
  /-- The version of the documentation; it is not blank. -/
  version : Option String
  deriving DecidableEq, Repr

namespace Edition

/-- The edition of a layout and a version; a blank version is none. -/
def of (layout : Layout) (version : Option String) : Edition :=
  ⟨layout, version.filter fun v => !(Text.Blank.trimText v).isEmpty⟩

/-- The version as a value for templates. -/
def versionValue (e : Edition) : Value :=
  match e.version with
  | some v => .string v
  | none => .null

end Edition

/-- A page to be printed. -/
structure Page where
  path : String
  template : Template
  context : Value

namespace Page

/-- A list of texts as a value for templates. -/
def texts (ss : List String) : Value := .list (ss.map .string)

/-- A definition as a value for templates. -/
def definitionValue (d : Definition) : Value :=
  .map [
    ("kind", .string d.kind.name),
    ("domain", .string d.domain),
    ("handler_class", .string d.handlerClass),
    ("command_class", .string d.commandClass),
    ("constructor_parameters", texts d.constructorParameters),
    ("description", .string d.description),
    ("return_type", .string d.returnType),
    ("handler_interfaces", texts d.handlerInterfaces),
    ("simple_class_name", .string d.simpleClassName),
    ("slug", .string d.slug)]

/-- The definitions of a domain as a value for templates. -/
def definitionsValue (ds : DomainDefinitions) : Value :=
  .map [
    ("commands", .list (ds.commands.map definitionValue)),
    ("queries", .list (ds.queries.map definitionValue))]

/-- The page of a domain. -/
def ofDomain (e : Edition) (destination domain : String) (ds : DomainDefinitions) : Page where
  path := e.layout.domainFile destination (domainSlug domain)
  template :=
    match e.layout with
    | .flat => .domainList
    | .nested => .domainIndex
  context := .map [
    ("domain", .string domain),
    ("slug", .string (domainSlug domain)),
    ("definitions_by_type", definitionsValue ds),
    ("version", e.versionValue)]

/-- The page of a definition. -/
def ofDefinition (e : Edition) (destination domain : String) (d : Definition) : Page where
  path := definitionFile destination (domainSlug domain) d.slug
  template := .definition
  context := .map [
    ("definition", definitionValue d),
    ("domain", .string domain),
    ("version", e.versionValue)]

/-- The pages of the definitions of a domain, if the layout has any. -/
def ofDefinitions (e : Edition) (destination domain : String) (ds : DomainDefinitions) :
    List Page :=
  match e.layout with
  | .flat => []
  | .nested => (ds.commands ++ ds.queries).map (ofDefinition e destination domain)

/-- What the page that links to the domains says about one of them. -/
def domainValue (e : Edition) (domain : String) (ds : DomainDefinitions) : Value :=
  .map [
    ("name", .string domain),
    ("link", .string (e.layout.domainLink (domainSlug domain))),
    ("slug", .string (domainSlug domain)),
    ("commands", .int ds.commands.length),
    ("queries", .int ds.queries.length)]

/-- The page that links to the domains. -/
def ofIndex (e : Edition) (destination : String) (domains : List (String × DomainDefinitions)) :
    Page where
  path := indexFile destination
  template := .index
  context := .map [
    ("domains", .list (domains.map fun (domain, ds) => domainValue e domain ds)),
    ("version", e.versionValue)]

/-- All pages of a grouping in the order of their printing. -/
def all (e : Edition) (destination : String) (g : Grouping) : List Page :=
  (g.inhabited.flatMap fun (domain, ds) =>
    ofDomain e destination domain ds :: ofDefinitions e destination domain ds) ++
  [ofIndex e destination g.inhabited]

end Page

end BusReference
