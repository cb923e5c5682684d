import BusReference.CommandLine.Arguments
import BusReference.Config.Reading
import BusReference.Project.Basic

/-!
# Runs of the program

What a command line does to a file system and what it says: text for the output, lines for the log
and an exit code.
-/

namespace BusReference.CommandLine

open BusReference.Files

/-- The level of detail of the log. -/
def logLevel (verbose : Bool) : String := if verbose then "debug" else "info"

namespace Arguments

/-- The configuration with the settings of a command line. A bad layout keeps those of the print
options out. -/
def applyTo (args : Arguments) (config : Config) : Config × Option Error :=
  let sources : SourceSettings := {
    roots := if args.sources.isEmpty then config.sources.roots else args.sources
    domainPattern := args.domainPattern.getD config.sources.domainPattern
    manifest := args.manifest.or config.sources.manifest }
  match args.command with
  | .list => ({ config with sources }, none)
  | .print options =>
    let docs := { config.docs with version := options.docsVersion.or config.docs.version }
    match options.layout with
    | none => ({ docs, sources }, none)
    | some name =>
      match Layout.parse name with
      | .error error => ({ config with sources }, some error)
      | .ok layout => ({ docs := { docs with layout }, sources }, none)

end Arguments

/-- The directory that a printing goes to: the given one or that of the configuration. It has to be
an absolute path, and a directory if it is there at all. -/
def destination (fs : FileSystem) (dir : Option String) (config : Config) :
    Except Error String :=
  match dir.or config.docs.destination with
  | none => .error .noDestination
  | some path =>
    if !Path.isAbsolute path then .error (.relativeDestination path)
    else if fs.pathExists path && !fs.isDirectory path then .error (.destinationNotDirectory path)
    else .ok path

/-- The directory of the user's configuration: the one that is named for it, if by an absolute
path, or the usual one in the home directory. -/
def configDirectory (named home : Option String) : String :=
  match named.filter Path.isAbsolute, home with
  | some directory, _ => directory
  | none, some home => Path.join home ".config"
  | none, none => "."

/-- The configuration file in the directory of the user's configuration. -/
def defaultConfigPath (directory : String) : String :=
  Path.join (Path.join directory "cqrs-doc-tools") "config.toml"

/-- A line of the log. -/
inductive LogLine where
  | warning (w : Warning)
  | failure (e : Error)
  deriving DecidableEq, Repr

/-- The text of a line of the log, its level first. -/
def LogLine.text : LogLine → String
  | warning w => "WARN " ++ w.message
  | failure e => "ERROR " ++ e.category.name ++ ": " ++ e.message

/-- What a run leaves behind. -/
structure Report where
  files : FileSystem
  output : String := ""
  log : List LogLine := []
  exitCode : Nat := 0

namespace Report

/-- The report of a failure. -/
def ofError (fs : FileSystem) (warnings : List Warning) (e : Error) : Report where
  files := fs
  log := warnings.map .warning ++ [.failure e]
  exitCode := 1

/-- The report of a printing into a directory. -/
def ofPrint (warnings : List Warning) (directory : String) (result : PrintResult) : Report :=
  match result.outcome with
  | .error e => ofError result.files warnings e
  | .ok .cancelled => {
      files := result.files
      output := "Cancelled\n"
      log := warnings.map .warning
      exitCode := 1 }
  | .ok (.printed _ _) => {
      files := result.files
      output := "dumped commands & queries to " ++ directory ++ "\n"
      log := warnings.map .warning }

/-- The report of a command line that is no command. -/
def ofUsage (fs : FileSystem) : UsageError → Report
  | .helpRequested => { files := fs, output := "Usage: cqrs-docs [OPTIONS] <COMMAND>\n" }
  | .versionRequested => { files := fs, output := "cqrs-docs 0.1.0\n" }
  | _ => { files := fs, exitCode := 2 }

end Report

/-- Lists the definitions of a project. -/
def runList (fs : FileSystem) (config : Config) : Report :=
  match Project.load fs config.sources with
  | (warnings, .error e) => .ofError fs warnings e
  | (warnings, .ok project) =>
    match project.listing with
    | .error e => .ofError fs warnings e
    | .ok text => { files := fs, output := text, log := warnings.map .warning }

/-- Prints the definitions of a project. The question is not asked if the options answer it. -/
def runPrint (fs : FileSystem) (config : Config) (options : PrintOptions) : Confirmed Report :=
  match destination fs options.dir config with
  | .error e => .done (.ofError fs [] e)
  | .ok directory =>
    match Project.load fs config.sources with
    | (warnings, .error e) => .done (.ofError fs warnings e)
    | (warnings, .ok project) =>
      let report := (project.print config.docs directory options.force fs).map
        (Report.ofPrint warnings directory)
      if options.yes then .done (report.answer fun _ => .ok true) else report

/-- Runs the command of a command line. -/
def runArguments (fs : FileSystem) (configDirectory : String) (args : Arguments) :
    Confirmed Report :=
  match Config.load fs (args.config.getD (defaultConfigPath configDirectory)) with
  | .error e => .done (.ofError fs [] e)
  | .ok config =>
    match args.applyTo config with
    | (_, some e) => .done (.ofError fs [] e)
    | (config, none) =>
      match args.command with
      | .list => .done (runList fs config)
      | .print options => runPrint fs config options

/-- Runs the program on the words of a command line. -/
def run (fs : FileSystem) (configDirectory : String) (words : List String) : Confirmed Report :=
  match Arguments.parse words with
  | .error e => .done (.ofUsage fs e)
  | .ok args => runArguments fs configDirectory args

/-- The configuration file that a command line is run with, if it is run at all. -/
def configFile (configDirectory : String) (words : List String) : List String :=
  match Arguments.parse words with
  | .error _ => []
  | .ok args => [args.config.getD (defaultConfigPath configDirectory)]

/-- The paths that a run looks at besides that of its configuration file. -/
def consulted (fs : FileSystem) (configDirectory : String) (words : List String) : List String :=
  match Arguments.parse words with
  | .error _ => []
  | .ok args =>
    match Config.load fs (args.config.getD (defaultConfigPath configDirectory)) with
    | .error _ => []
    | .ok config =>
      let (config, _) := args.applyTo config
      let directory :=
        match args.command with
        | .list => none
        | .print options => options.dir.or config.docs.destination
      config.sources.roots ++ config.sources.manifest.toList ++ directory.toList

end BusReference.CommandLine
