import BusReference.Toml.Number
import BusReference.Toml.Quoted
import BusReference.Toml.Table

/-!
# Reading settings

A TOML file is read line by line: headers open tables, and all other lines put a value under a key
of the table that was opened last. A file with any mistake gives no table at all.
-/

namespace BusReference.Toml

/-- The text after a comment at its start, if there is one. -/
def skipComment (cs : List Char) : List Char :=
  if cs.head? = some '#' then cs.tail.dropWhile isLineChar else cs

/-- The text after the end of a line, of which only blanks and a comment are left. -/
def endLine? (cs : List Char) : Option (List Char) :=
  match skipComment (skipSpaces cs) with
  | [] => some []
  | rest => lineBreak? rest

/-- A character of a key without quotes. -/
def isKeyChar (c : Char) : Bool := c.isAlphanum || c == '_' || c == '-'

/-- A part of a dotted key, and what follows it. -/
def readKey (cs : List Char) : Option (String × List Char) :=
  match cs with
  | '"' :: rest => (Quoted.readLine '"' rest).map fun (s, rest) => (String.ofList s, rest)
  | '\'' :: rest => (Quoted.readLine '\'' rest).map fun (s, rest) => (String.ofList s, rest)
  | _ =>
    let key := cs.takeWhile isKeyChar
    if key.isEmpty then none else some (String.ofList key, cs.drop key.length)

/-- A dotted key, as its parts before the last one and the last one, and what follows it and
blanks. -/
def readKeys (cs : List Char) : Option ((List String × String) × List Char) :=
  match readKey (skipSpaces cs) with
  | none => none
  | some (key, rest) =>
    match skipSpaces rest with
    | '.' :: rest =>
      if rest.length < cs.length then
        (readKeys rest).map fun ((keys, last), rest) => ((key :: keys, last), rest)
      else none
    | rest => some (([], key), rest)
  termination_by cs.length

/-- A character of a word that is a number, a truth value or a date. -/
def isWordChar (c : Char) : Bool :=
  c.isAlphanum || c == '_' || c == '+' || c == '-' || c == '.' || c == ':'

/-- The length of the word at the start of a text. A date and a time are one word even with a space
between them. -/
def wordLength (cs : List Char) : Nat :=
  let word := cs.takeWhile isWordChar
  match cs.drop word.length with
  | ' ' :: rest =>
    let time := rest.takeWhile isWordChar
    if Number.isDate word && !time.isEmpty then word.length + 1 + time.length else word.length
  | _ => word.length

/-- The value of a word. -/
def wordValue? (word : List Char) : Option Value :=
  if word == "true".toList || word == "false".toList then some .scalar
  else if Number.isMoment word then some .moment
  else if Number.isFloat word || Number.isInteger word then some .scalar
  else none

/-- A value without parts at the start of a text: a quoted text or a word. -/
def readSimple (cs : List Char) : Option (Value × List Char) :=
  match cs with
  | '"' :: _ => (Quoted.read '"' cs).map fun (s, rest) => (.string (String.ofList s), rest)
  | '\'' :: _ => (Quoted.read '\'' cs).map fun (s, rest) => (.string (String.ofList s), rest)
  | _ =>
    let length := wordLength cs
    (wordValue? (cs.take length)).map fun v => (v, cs.drop length)

/-- The text after blanks, line breaks and comments. -/
def skipLines (cs : List Char) : List Char :=
  match skipSpaces cs with
  | '#' :: rest =>
    match lineBreak? (rest.dropWhile isLineChar) with
    | some next => if next.length < cs.length then skipLines next else next
    | none => '#' :: rest
  | rest =>
    match lineBreak? rest with
    | some next => if next.length < cs.length then skipLines next else next
    | none => rest
  termination_by cs.length

mutual

/-- A value at the start of a text, and what follows it. -/
def readValue (cs : List Char) : Option (Value × List Char) :=
  match cs with
  | '[' :: rest =>
    if (skipLines rest).length ≤ rest.length then
      (readItems (skipLines rest)).map fun (items, rest) => (.array items, rest)
    else none
  | '\x7b' :: rest =>
    match skipSpaces rest with
    | '\x7d' :: after => some (.table .braces [], after)
    | _ => (readFields [] rest).map fun (fields, rest) => (.table .braces fields, rest)
  | _ => readSimple cs
  termination_by (cs.length, 0)

/-- The items of an array up to its closing bracket. -/
def readItems (cs : List Char) : Option (List Value × List Char) :=
  if cs.head? = some ']' then some ([], cs.tail)
  else
    match readValue cs with
    | none => none
    | some (v, rest) =>
      match skipLines rest with
      | ']' :: rest => some ([v], rest)
      | ',' :: rest =>
        if (skipLines rest).length < cs.length then
          (readItems (skipLines rest)).map fun (items, rest) => (v :: items, rest)
        else none
      | _ => none
  termination_by (cs.length, 1)

/-- The fields of a table between braces, added to those before them, up to the closing brace. -/
def readFields (before : Fields) (cs : List Char) : Option (Fields × List Char) :=
  match readKeys cs with
  | some ((keys, key), '=' :: rest) =>
    if (skipSpaces rest).length < cs.length then
      match readValue (skipSpaces rest) with
      | none => none
      | some (v, rest) =>
        match Fields.addDotted keys key v .braces before with
        | none => none
        | some fields =>
          match skipSpaces rest with
          | '\x7d' :: rest => some (fields, rest)
          | ',' :: rest => if rest.length < cs.length then readFields fields rest else none
          | _ => none
    else none
  | _ => none
  termination_by (cs.length, 1)

end

/-- What has been read of a file: its fields and the path to the table of the last header. -/
structure State where
  fields : Fields := []
  table : List String := []
  deriving Repr

/-- Reads a header after its first bracket. -/
def readHeader (s : State) (cs : List Char) : Option (State × List Char) :=
  match cs with
  | '[' :: rest =>
    match readKeys rest with
    | some ((keys, key), ']' :: ']' :: rest) =>
      (s.fields.openRepeated keys key).map fun fields => (⟨fields, keys ++ [key]⟩, rest)
    | _ => none
  | _ =>
    match readKeys cs with
    | some ((keys, key), ']' :: rest) =>
      (s.fields.openTable keys key).map fun fields => (⟨fields, keys ++ [key]⟩, rest)
    | _ => none

/-- Reads a key with its value. -/
def readField (s : State) (cs : List Char) : Option (State × List Char) :=
  match readKeys cs with
  | some ((keys, key), '=' :: rest) =>
    match readValue (skipSpaces rest) with
    | none => none
    | some (v, rest) =>
      (s.fields.addIn s.table keys key v).map fun fields => ({ s with fields }, rest)
  | _ => none

/-- Reads what a line holds besides blanks and comments. -/
def readLine (s : State) (cs : List Char) : Option (State × List Char) :=
  match skipSpaces cs with
  | [] | '#' :: _ | '\n' :: _ | '\r' :: _ => some (s, cs)
  | '[' :: rest => readHeader s rest
  | rest => readField s rest

/-- Reads the lines of a file. -/
def readLines (s : State) (cs : List Char) : Option Fields :=
  if cs.isEmpty then some s.fields
  else
    match readLine s cs with
    | none => none
    | some (s, rest) =>
      match endLine? rest with
      | none => none
      | some rest => if rest.length < cs.length then readLines s rest else none
  termination_by cs.length

/-- The fields of a file. A mark of the byte order at its start does not count. -/
def parse? (text : String) : Option Fields :=
  match text.toList with
  | '\ufeff' :: cs => readLines {} cs
  | cs => readLines {} cs

end BusReference.Toml
