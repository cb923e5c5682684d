/-!
# The command line

Which subcommands and options there are. The options of the program itself may also stand after a
subcommand.
-/

namespace BusReference.CommandLine

/-- An option. -/
inductive Switch where
  | config
  | source
  | manifest
  | domainPattern
  | verbose
  | help
  | version
  | dir
  | force
  | yes
  | layout
  | docsVersion
  deriving DecidableEq, Repr

namespace Switch

/-- The long name of an option. -/
def long : Switch → String
  | config => "config"
  | source => "source"
  | manifest => "manifest"
  | domainPattern => "domain-pattern"
  | verbose => "verbose"
  | help => "help"
  | version => "version"
  | dir => "dir"
  | force => "force"
  | yes => "yes"
  | layout => "layout"
  | docsVersion => "docs-version"

/-- The one-letter name of an option, if it has one. -/
def short? : Switch → Option Char
  | source => some 's'
  | manifest => some 'm'
  | verbose => some 'v'
  | help => some 'h'
  | version => some 'V'
  | force => some 'f'
  | yes => some 'y'
  | config | domainPattern | dir | layout | docsVersion => none

/-- The option has a value. -/
def takesValue : Switch → Bool
  | verbose | help | version | force | yes => false
  | config | source | manifest | domainPattern | dir | layout | docsVersion => true

/-- The value of the option is a path, which cannot be empty. -/
def takesPath : Switch → Bool
  | config | source | manifest | dir => true
  | _ => false

/-- The option may be given more than once. -/
def repeats : Switch → Bool
  | source => true
  | _ => false

end Switch

/-- Where on the command line an option stands: before a subcommand or after it. -/
inductive Level where
  | program
  | list
  | print
  deriving DecidableEq, Repr

namespace Level

/-- The options of the program that a subcommand takes as well. -/
def sharedSwitches : List Switch :=
  [.config, .source, .manifest, .domainPattern, .verbose, .help]

/-- The options that may stand at a level. -/
def switches : Level → List Switch
  | program => sharedSwitches ++ [.version]
  | list => sharedSwitches
  | print => sharedSwitches ++ [.dir, .force, .yes, .layout, .docsVersion]

/-- The option with the given long name. -/
def ofLong? (level : Level) (name : String) : Option Switch :=
  level.switches.find? (·.long == name)

/-- The option with the given one-letter name. -/
def ofShort? (level : Level) (letter : Char) : Option Switch :=
  level.switches.find? (·.short? == some letter)

end Level

/-- A word in the place of a subcommand. -/
inductive Subcommand where
  | list
  | print
  | help
  deriving DecidableEq, Repr

/-- The subcommand of the given name. -/
def Subcommand.ofName? : String → Option Subcommand
  | "list" => some list
  | "print" => some print
  | "help" => some help
  | _ => none

/-- What is wrong with a command line, or asks for something other than a run. -/
inductive UsageError where
  | unknownArgument
  | unknownSubcommand
  /-- An option has no value, or an empty path for a value. -/
  | missingValue
  /-- An option without a value is given one. -/
  | unexpectedValue
  /-- An option is given twice. -/
  | repeatedArgument
  | missingSubcommand
  /-- There are no arguments at all. -/
  | noArguments
  | helpRequested
  | versionRequested
  deriving DecidableEq, Repr

end BusReference.CommandLine
