import BusReference.Error
import BusReference.Template.Value
import BusReference.Text.CaseMapping
import BusReference.Text.Pieces

/-!
# Pages

The templates of the reference, each as a function from the values it is given to the text of a
page. There is no text if the template asks for a part of what is undefined, or walks through what
has no elements.
-/

namespace BusReference

/-- The templates. -/
inductive Template where
  /-- A page that lists all definitions of a domain. -/
  | domainList
  /-- A page that includes the pages of all definitions of a domain. -/
  | domainIndex
  /-- A page of one definition. -/
  | definition
  /-- The page that links to the pages of all domains. -/
  | index
  deriving DecidableEq, Repr

namespace Template

/-- The name of a template. -/
def name : Template → String
  | domainList => "cqrs-commands-list.md"
  | domainIndex => "cqrs-domain-index.md"
  | definition => "cqrs-definition.md"
  | index => "cqrs-commands-index.md"

/-- The template of the given name. -/
def ofName? (s : String) : Option Template :=
  [domainList, domainIndex, definition, index].find? (·.name == s)

/-- A text for a table cell, with a backslash before every pipe. -/
def cell (s : String) : String := Text.Pieces.replace s "|" "\\|"

/-- A text between the marks of code. -/
def code (s : String) : String := "`" ++ s ++ "`"

/-- The line that opens the head of a page, with its title. -/
def head (title : String) : String := "---\ntitle: " ++ title ++ "\n"

/-- The line of a head that gives the version. -/
def versionLine (version : Value) : String := "version: \"" ++ version.text ++ "\"\n"

/-- The line of a head that gives the version, if there is one. -/
def optionalVersionLine (version : Value) : String :=
  if version.isTrue then versionLine version else ""

/-- The text that a template makes of the elements of a value, or none for an empty value. -/
def ofElements (v : Value) (write : List Value → Option String) : Option String :=
  if v.isTrue then v.elements?.bind write else some ""

/-- The texts that a template makes of the elements of a value, joined. -/
def forEach (write : Value → Option String) (vs : List Value) : Option String :=
  (vs.mapM write).map String.join

/-- The texts of the elements of a value within a longer text; none for an empty value. -/
def ofTexts (v : Value) (write : List String → String) : Option String :=
  ofElements v fun vs => some (write (vs.map (·.text)))

/-- The description with the blank line after it, if there is one. -/
def descriptionLines (description : Value) : String :=
  if description.isTrue then description.text ++ "\n\n" else ""

/-- A section of a domain page: the definitions of one kind under their title. -/
def kindSection (byType : Value) (write : List Value → Option String) (kind title : String) :
    Option String := do
  let definitions ← byType.part? kind
  ofElements definitions fun vs => (write vs).map fun body => "## " ++ title ++ "\n\n" ++ body

/-- The sections of a domain page. -/
def kindSections (byType : Value) (write : List Value → Option String) : Option String := do
  let commands ← kindSection byType write "commands" "Commands"
  let queries ← kindSection byType write "queries" "Queries"
  return commands ++ queries

/-- The entry of a definition in the page that lists a domain. -/
def listEntry (definition : Value) : Option String := do
  let simpleClassName ← definition.part? "simple_class_name"
  let description ← definition.part? "description"
  let commandClass ← definition.part? "command_class"
  let handlerClass ← definition.part? "handler_class"
  let handlerInterfaces ← definition.part? "handler_interfaces"
  let returnType ← definition.part? "return_type"
  let constructorParameters ← definition.part? "constructor_parameters"
  let implements ← ofTexts handlerInterfaces fun names =>
    "- **Implements:** " ++ String.intercalate ", " (names.map code) ++ "\n"
  let parameters ← ofTexts constructorParameters fun parameters =>
    "**Parameters:**\n\n```php\n" ++ String.join (parameters.map (· ++ "\n")) ++ "```\n\n"
  return String.join [
    "### ", simpleClassName.text, "\n\n", descriptionLines description,
    "- **Class:** ", code commandClass.text, "\n",
    "- **Handler:** ", code handlerClass.text, "\n",
    implements,
    "- **Return type:** ", code returnType.text, "\n\n",
    parameters]

/-- The page that lists all definitions of a domain. -/
def domainListPage (context : Value) : Option String := do
  let domain := context.variableIn "domain"
  let sections ← kindSections (context.variableIn "definitions_by_type") (forEach listEntry)
  return String.join [
    head domain.text, optionalVersionLine (context.variableIn "version"), "---\n\n",
    "# ", domain.text, " domain\n\n", sections]

/-- The line that includes the page of a definition. -/
def includeLine (definition : Value) : Option String := do
  let slug ← definition.part? "slug"
  return "\x7b\x7b% include file=\"_partials/" ++ slug.text ++ ".md\" %\x7d\x7d\n"

/-- The page that includes the pages of all definitions of a domain. -/
def domainIndexPage (context : Value) : Option String := do
  let domain := context.variableIn "domain"
  let sections ← kindSections (context.variableIn "definitions_by_type") fun vs =>
    (forEach includeLine vs).map (· ++ "\n")
  return String.join [
    head domain.text, versionLine (context.variableIn "version"), "---\n\n",
    "# ", domain.text, " domain\n\n", sections]

/-- A row of the table of a definition page. -/
def tableRow (title content : String) : String := "| " ++ title ++ " | " ++ content ++ " |\n"

/-- The call of a constructor, a parameter a line. -/
def constructorCall (simpleClassName : String) (parameters : List String) : String :=
  String.join [
    "```php\nnew ", simpleClassName, "(\n",
    String.intercalate ",\n" (parameters.map ("    " ++ ·)), "\n);\n```\n"]

/-- The page of one definition. -/
def definitionPage (context : Value) : Option String := do
  let definition := context.variableIn "definition"
  let version := context.variableIn "version"
  let simpleClassName ← definition.part? "simple_class_name"
  let description ← definition.part? "description"
  let kind ← definition.part? "kind"
  let commandClass ← definition.part? "command_class"
  let handlerClass ← definition.part? "handler_class"
  let handlerInterfaces ← definition.part? "handler_interfaces"
  let returnType ← definition.part? "return_type"
  let constructorParameters ← definition.part? "constructor_parameters"
  let implements ← ofTexts handlerInterfaces fun names =>
    tableRow "Implements" (String.intercalate "<br>" (names.map fun name => code (cell name)))
  let call ← ofTexts constructorParameters (constructorCall simpleClassName.text)
  return String.join [
    "## ", simpleClassName.text, "\n\n", descriptionLines description,
    "| | |\n|---|---|\n",
    tableRow "Type" (Text.CaseMapping.capitalize kind.text),
    tableRow "Class" (code (cell commandClass.text)),
    tableRow "Handler" (code (cell handlerClass.text)),
    implements,
    tableRow "Return type" (code (cell returnType.text)),
    if version.isTrue then tableRow "Since" (cell version.text) else "",
    "\n", call]

/-- The line of a domain in the page that links to all domains. -/
def domainLine (domain : Value) : Option String := do
  let name ← domain.part? "name"
  let link ← domain.part? "link"
  let commands ← domain.part? "commands"
  let queries ← domain.part? "queries"
  return String.join [
    "- [", name.text, "](", link.text, ") (", commands.text, " commands, ",
    queries.text, " queries)\n"]

/-- The page that links to the pages of all domains. -/
def indexPage (context : Value) : Option String := do
  let domains ← (context.variableIn "domains").elements?
  let lines ← forEach domainLine domains
  return String.join [
    head "CQRS commands and queries", optionalVersionLine (context.variableIn "version"),
    "---\n\n# CQRS commands and queries\n\n",
    "Commands and queries available on the command bus, grouped by domain.\n\n", lines]

/-- The text that a template makes of a context, if it makes one. -/
def page? : Template → Value → Option String
  | domainList => domainListPage
  | domainIndex => domainIndexPage
  | definition => definitionPage
  | index => indexPage

/-- The page of a template. -/
def render (t : Template) (context : Value) : Except Error String :=
  match t.page? context with
  | some page => .ok page
  | none => .error (.notRendered t.name)

/-- The page of the template of the given name. -/
def renderNamed (name : String) (context : Value) : Except Error String :=
  match ofName? name with
  | some t => t.render context
  | none => .error (.unknownTemplate name)

end Template

end BusReference
