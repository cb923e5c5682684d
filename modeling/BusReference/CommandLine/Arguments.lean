import BusReference.CommandLine.Grammar

/-!
# Arguments

Reading the words of a command line. An option without its value takes the next word, unless that
looks like an option itself. A word is checked when the next option or the end of the line is
reached, so an unknown option is reported before a bad value of the option in front of it.
-/

namespace BusReference.CommandLine

/-- The options read at one level. -/
structure Reading where
  /-- The options with their values; those without a value have an empty one. -/
  settled : List (Switch × String) := []
  /-- The last option, if it has a value or waits for one. -/
  pending : Option (Switch × Option String) := none
  deriving Repr

namespace Reading

/-- The next word is the value of the last option, unless it looks like an option. -/
def awaitsValue (r : Reading) : Bool :=
  match r.pending with
  | some (_, none) => true
  | _ => false

/-- Accepts an option with the value that was found for it. -/
def settle (switch : Switch) (value : Option String) (r : Reading) : Except UsageError Reading :=
  if switch = .help then .error .helpRequested
  else if switch = .version then .error .versionRequested
  else if switch.takesValue && value.isNone then .error .missingValue
  else if !switch.repeats && r.settled.any (·.1 == switch) then .error .repeatedArgument
  else if switch.takesPath && value == some "" then .error .missingValue
  else .ok { r with settled := r.settled ++ [(switch, value.getD "")] }

/-- Accepts the last option, if that has not been done. -/
def resolve (r : Reading) : Except UsageError Reading :=
  match r.pending with
  | none => .ok r
  | some (switch, value) => settle switch value { r with pending := none }

/-- Reads an option that needs no further word. -/
def react (switch : Switch) (value : Option String) (r : Reading) : Except UsageError Reading :=
  match r.resolve with
  | .error error => .error error
  | .ok r => r.settle switch value

/-- Reads an option whose value is the next word. -/
def await (switch : Switch) (r : Reading) : Except UsageError Reading :=
  match r.resolve with
  | .error error => .error error
  | .ok r => .ok { r with pending := some (switch, none) }

/-- Takes a word as the value of the last option. -/
def take (value : String) (r : Reading) : Reading :=
  { r with pending := r.pending.map fun (switch, _) => (switch, some value) }

/-- Splits a word at its first equals sign. -/
def splitValue (cs : List Char) : String × Option String :=
  let name := cs.takeWhile (· != '=')
  match cs.drop name.length with
  | [] => (String.ofList name, none)
  | _ :: value => (String.ofList name, some (String.ofList value))

/-- Reads an option by its long name, after its dashes. -/
def readLong (level : Level) (cs : List Char) (r : Reading) : Except UsageError Reading :=
  let (name, value) := splitValue cs
  match level.ofLong? name with
  | none => .error .unknownArgument
  | some switch =>
    match switch.takesValue, value with
    | true, none => r.await switch
    | false, some _ => .error .unexpectedValue
    | _, value => r.react switch value

/-- The text after the equals sign at its start, if there is one. -/
def dropEquals : List Char → List Char
  | '=' :: cs => cs
  | cs => cs

/-- Reads options by their letters, after the dash. The first one with a value takes the rest of the
word for it. -/
def readLetters (level : Level) : List Char → Reading → Except UsageError Reading
  | [], r => .ok r
  | c :: cs, r =>
    match level.ofShort? c with
    | none => .error .unknownArgument
    | some switch =>
      if switch.takesValue then
        if cs.isEmpty then r.await switch
        else r.react switch (some (String.ofList (dropEquals cs)))
      else
        match r.react switch none with
        | .error error => .error error
        | .ok r => readLetters level cs r

end Reading

/-- The error for a word that is neither an option nor a value, perhaps after `--`. -/
def strayWord (level : Level) (afterDashes : Bool) (word : String) : UsageError :=
  if level = .program ∧ ¬(afterDashes ∧ (Subcommand.ofName? word).isSome) then .unknownSubcommand
  else .unknownArgument

/-- What comes of asking for help with the given words: they have to name a subcommand. -/
def helpOn (words : List String) : UsageError :=
  match words with
  | [] => .helpRequested
  | [word] => if (Subcommand.ofName? word).isSome then .helpRequested else .unknownSubcommand
  | _ => .unknownSubcommand

/-- The level after a subcommand, or the error of the one for help. -/
def enter (subcommand : Subcommand) (words : List String) : Except UsageError Level :=
  match subcommand with
  | .list => .ok .list
  | .print => .ok .print
  | .help => .error (helpOn words)

/-- The subcommand that a word is at a level. -/
def subcommandAt (level : Level) (r : Reading) (word : String) : Option Subcommand :=
  if level = .program ∧ ¬r.awaitsValue then Subcommand.ofName? word else none

/-- Reads one word that is no subcommand; `--` is none of them. -/
def readWord (level : Level) (r : Reading) (word : String) : Except UsageError Reading :=
  match word.toList with
  | '-' :: '-' :: cs => r.readLong level cs
  | '-' :: c :: cs => r.readLetters level (c :: cs)
  | _ => if r.awaitsValue then .ok (r.take word) else .error (strayWord level false word)

/-- Reads the words of a level, up to a subcommand: the options, and the level of the subcommand
with the words after it. After `--` no words may follow. -/
def readLevel (level : Level) (r : Reading) :
    List String → Except UsageError (Reading × Option (Level × List String))
  | [] => .ok (r, none)
  | word :: words =>
    match subcommandAt level r word with
    | some subcommand => (enter subcommand words).map fun next => (r, some (next, words))
    | none =>
      if word = "--" then
        match words with
        | [] => .ok (r, none)
        | word :: _ => .error (strayWord level true word)
      else
        match readWord level r word with
        | .error error => .error error
        | .ok r => readLevel level r words

/-- The options of `print`. -/
structure PrintOptions where
  dir : Option String := none
  force : Bool := false
  yes : Bool := false
  layout : Option String := none
  docsVersion : Option String := none
  deriving DecidableEq, Repr

/-- The command of a command line. -/
inductive Command where
  | list
  | print (options : PrintOptions)
  deriving DecidableEq, Repr

/-- A command line. -/
structure Arguments where
  config : Option String := none
  sources : List String := []
  manifest : Option String := none
  domainPattern : Option String := none
  verbose : Bool := false
  command : Command
  deriving DecidableEq, Repr

namespace Arguments

/-- The values of an option at a level. -/
def values (settled : List (Switch × String)) (switch : Switch) : List String :=
  (settled.filter (·.1 == switch)).map (·.2)

/-- The values of an option: those after the subcommand or, without any, those before it. -/
def shared (outer inner : List (Switch × String)) (switch : Switch) : List String :=
  match values inner switch with
  | [] => values outer switch
  | found => found

/-- The command of a level with the options that were given for it. -/
def commandOf (level : Level) (settled : List (Switch × String)) : Command :=
  match level with
  | .print => .print {
      dir := (values settled .dir).head?
      force := !(values settled .force).isEmpty
      yes := !(values settled .yes).isEmpty
      layout := (values settled .layout).head?
      docsVersion := (values settled .docsVersion).head? }
  | _ => .list

/-- The command line of the options before and after a subcommand. -/
def ofOptions (level : Level) (outer inner : List (Switch × String)) : Arguments where
  config := (shared outer inner .config).head?
  sources := shared outer inner .source
  manifest := (shared outer inner .manifest).head?
  domainPattern := (shared outer inner .domainPattern).head?
  verbose := !(shared outer inner .verbose).isEmpty
  command := commandOf level inner

/-- The error of a command line without a subcommand. -/
def withoutSubcommand (r : Reading) : UsageError :=
  match r.resolve with
  | .error error => error
  | .ok r => if r.settled.isEmpty then .noArguments else .missingSubcommand

/-- Reads a command line, without the name of the program. -/
def parse (words : List String) : Except UsageError Arguments := do
  let (outer, subcommand) ← readLevel .program {} words
  match subcommand with
  | none => .error (withoutSubcommand outer)
  | some (level, words) =>
    let (inner, _) ← readLevel level {} words
    let inner ← inner.resolve
    let outer ← outer.resolve
    return ofOptions level outer.settled inner.settled

end Arguments

end BusReference.CommandLine
