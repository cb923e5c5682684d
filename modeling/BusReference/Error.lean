import BusReference.Files.Change
import BusReference.Php.Fault

/-!
# Errors

Every reason for which a command can fail. The reasons fall into five categories, and the category
opens the message. Where a text in a foreign notation cannot be read, the message ends with a colon
in front of the details.
-/

namespace BusReference

open BusReference.Files (ReadError SystemError)

/-- The categories of errors. -/
inductive Category where
  | typeResolution
  | configuration
  | io
  | source
  | template
  deriving DecidableEq, Repr

namespace Category

/-- The name of a category. -/
def name : Category → String
  | typeResolution => "Type Resolution Error"
  | configuration => "Configuration Error"
  | io => "IO Error"
  | source => "Source Error"
  | template => "Template Error"

/-- The opening of the messages of a category. -/
def opening : Category → String
  | typeResolution => "Type resolution error"
  | configuration => "Configuration error"
  | io => "IO error"
  | source => "Source error"
  | template => "Template error"

end Category

/-- A reason for a failure. -/
inductive Error where
  /-- No type of the name is declared. -/
  | unknownType (name : String)
  /-- A handler has no method of the name that handlers need. -/
  | unknownMethod (type method : String)
  /-- The nested layout is printed without a version. -/
  | noVersion
  /-- The pages of two domains would have the same place. -/
  | sharedSlug (first second slug : String)
  | unknownLayout (name : String)
  | unreadablePattern
  /-- A domain pattern has no group that captures the domain. -/
  | noDomainGroup (pattern : String)
  | noRoots
  | noDestination
  | relativeDestination (path : String)
  | destinationNotDirectory (path : String)
  | manifestNotRead (path : String) (reason : ReadError)
  /-- A text is no handler manifest. -/
  | malformedManifest
  /-- A file is no handler manifest. -/
  | malformedManifestFile
  | configNotRead (reason : ReadError)
  | malformedConfig (path : String)
  | directoryNotCreated (path : String) (reason : SystemError)
  | fileNotWritten (path : String) (reason : SystemError)
  | treeNotRemoved (path : String) (reason : SystemError)
  | listingNotWritten (reason : String)
  /-- The question whether to go on was not answered. -/
  | noAnswer (reason : String)
  | rootNotDirectory (path : String)
  | sourceNotRead (path : String) (reason : ReadError)
  /-- The declarations of a source text cannot be read. -/
  | malformedSource (path : Option String) (fault : Php.Fault)
  | unknownTemplate (name : String)
  /-- A template asks for a part of something that is not there. -/
  | notRendered (template : String)
  /-- A renderer other than that of the templates failed. -/
  | rendererFailed (reason : String)
  deriving DecidableEq, Repr

namespace Error

/-- The category of an error. -/
def category : Error → Category
  | unknownType _ | unknownMethod .. => .typeResolution
  | noVersion | sharedSlug .. | unknownLayout _ | unreadablePattern | noDomainGroup _ | noRoots
  | noDestination | relativeDestination _ | destinationNotDirectory _ | manifestNotRead ..
  | malformedManifest | malformedManifestFile | configNotRead _ | malformedConfig _ =>
    .configuration
  | directoryNotCreated .. | fileNotWritten .. | treeNotRemoved .. | listingNotWritten _
  | noAnswer _ => .io
  | rootNotDirectory _ | sourceNotRead .. | malformedSource .. => .source
  | unknownTemplate _ | notRendered _ | rendererFailed _ => .template

/-- A text between quotation marks. -/
def quoted (s : String) : String := "\"" ++ s ++ "\""

/-- The message of an error without the opening of its category. -/
def detail : Error → String
  | unknownType name => "Class " ++ quoted name ++ " does not exist"
  | unknownMethod type method => "Method " ++ type ++ "::" ++ method ++ "() does not exist"
  | noVersion =>
    "A documentation version is required for the nested layout (docs.version or --docs-version)"
  | sharedSlug first second slug =>
    "Domains " ++ quoted first ++ " and " ++ quoted second ++ " share the slug " ++ quoted slug
  | unknownLayout name => "Unknown layout '" ++ name ++ "', expected 'flat' or 'nested'"
  | unreadablePattern => "Invalid domain pattern:"
  | noDomainGroup pattern =>
    "Domain pattern '" ++ pattern ++ "' must contain a capture group for the domain name"
  | noRoots => "No source directories configured. Pass --source or set sources.roots"
  | noDestination => "Option --dir is not provided. You must provide it or configure docs.path"
  | relativeDestination path => quoted path ++ " is not an absolute path"
  | destinationNotDirectory path => quoted path ++ " is not a directory"
  | manifestNotRead path reason =>
    "Failed to read handler manifest " ++ path ++ ": " ++ reason.message
  | malformedManifest => "Invalid handler manifest:"
  | malformedManifestFile => Category.configuration.opening ++ ": Invalid handler manifest:"
  | configNotRead reason => "Failed to read config file: " ++ reason.message
  | malformedConfig path => "Configuration error in " ++ path ++ ":"
  | directoryNotCreated path reason => "Failed to create " ++ path ++ ": " ++ reason.message
  | fileNotWritten path reason => "Failed to write " ++ path ++ ": " ++ reason.message
  | treeNotRemoved path reason => "Failed to remove " ++ path ++ ": " ++ reason.message
  | listingNotWritten reason => "Failed to write listing: " ++ reason
  | noAnswer reason => reason
  | rootNotDirectory path => "Source root " ++ quoted path ++ " is not a directory"
  | sourceNotRead path reason => "Failed to read " ++ path ++ ": " ++ reason.message
  | malformedSource path fault => path.getD "<memory>" ++ ": " ++ fault.message
  | unknownTemplate name => "Unknown template " ++ name ++ ":"
  | notRendered template => "Failed to render " ++ template ++ ":"
  | rendererFailed reason => reason

/-- The message of an error. -/
def message (e : Error) : String := e.category.opening ++ ": " ++ e.detail

/-- The error of a file that could not be written. -/
def ofWrite : Files.FileSystem.WriteError → Error
  | .notCreated directory reason => directoryNotCreated directory reason
  | .notWritten path reason => fileNotWritten path reason

end Error

end BusReference
