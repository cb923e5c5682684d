import BusReference.HandlerMap.Basic
import BusReference.Text.Hex

/-!
# Handler manifests

A manifest is a JSON object whose members are strings: the name of a member is a handler class, its
value the command class. Nothing else is accepted, no comment and no comma after the last member.
-/

namespace BusReference.HandlerMap.Manifest

/-- A blank of the notation. -/
def isSpace (c : Char) : Bool :=
  c == ' ' || c == '\t' || c == '\n' || c == '\r'

/-- The text after the blanks at its start. -/
def skipSpace (cs : List Char) : List Char := cs.dropWhile isSpace

/-- The character that a letter after a backslash stands for. -/
def escaped? : Char → Option Char
  | '"' => some '"'
  | '\\' => some '\\'
  | '/' => some '/'
  | 'b' => some '\x08'
  | 'f' => some '\x0c'
  | 'n' => some '\n'
  | 'r' => some '\r'
  | 't' => some '\t'
  | _ => none

/-- The number of four hexadecimal digits at the start of the text, and the text after them. -/
def readUnit (cs : List Char) : Option (Nat × List Char) :=
  if cs.length < 4 then none
  else (Text.Hex.number? 16 (cs.take 4)).map fun n => (n, cs.drop 4)

/-- A unit that opens a pair of units for one character. -/
def opensPair (unit : Nat) : Bool := 0xd800 ≤ unit && unit < 0xdc00

/-- A unit that closes a pair. -/
def closesPair (unit : Nat) : Bool := 0xdc00 ≤ unit && unit < 0xe000

/-- The character that one or two units of 16 bits after `\u` stand for. A unit of a pair cannot
stand alone. -/
def readUnicode (cs : List Char) : Option (Char × List Char) :=
  match readUnit cs with
  | none => none
  | some (first, rest) =>
    if opensPair first then
      match rest with
      | '\\' :: 'u' :: rest =>
        match readUnit rest with
        | none => none
        | some (second, rest) =>
          if closesPair second then
            (Text.Hex.charOf? (0x10000 + (first - 0xd800) * 0x400 + (second - 0xdc00))).map
              (·, rest)
          else none
      | _ => none
    else (Text.Hex.charOf? first).map (·, rest)

/-- One character of a string and the text after it. Control characters have to be escaped. -/
def readCharacter : List Char → Option (Char × List Char)
  | [] => none
  | '\\' :: 'u' :: cs => readUnicode cs
  | '\\' :: c :: cs => (escaped? c).map (·, cs)
  | c :: cs => if c.toNat < 0x20 ∨ c = '\\' then none else some (c, cs)

/-- The characters of a string whose opening quote has been read, and the text after its closing
quote. -/
def readString (cs : List Char) : Option (List Char × List Char) :=
  if cs.head? = some '"' then some ([], cs.tail)
  else
    match readCharacter cs with
    | none => none
    | some (c, rest) =>
      if rest.length < cs.length then (readString rest).map fun (s, rest) => (c :: s, rest)
      else none
  termination_by cs.length

/-- A string after blanks. -/
def readText (cs : List Char) : Option (String × List Char) :=
  match skipSpace cs with
  | '"' :: rest => (readString rest).map fun (s, rest) => (String.ofList s, rest)
  | _ => none

/-- A member of the object: a name, a colon and a string. -/
def readMember (cs : List Char) : Option ((String × String) × List Char) :=
  match readText cs with
  | none => none
  | some (name, rest) =>
    match skipSpace rest with
    | ':' :: rest => (readText rest).map fun (value, rest) => ((name, value), rest)
    | _ => none

/-- The members up to the end of the object, at least one, and the text after the object. -/
def readMembers (cs : List Char) : Option (List (String × String) × List Char) :=
  match readMember cs with
  | none => none
  | some (member, rest) =>
    match skipSpace rest with
    | '}' :: rest => some ([member], rest)
    | ',' :: rest =>
      if rest.length < cs.length then
        (readMembers rest).map fun (members, rest) => (member :: members, rest)
      else none
    | _ => none
  termination_by cs.length

/-- The members of an object after blanks, and the text after the object. -/
def readObject (cs : List Char) : Option (List (String × String) × List Char) :=
  match skipSpace cs with
  | '\x7b' :: rest =>
    match skipSpace rest with
    | '\x7d' :: rest => some ([], rest)
    | _ => readMembers rest
  | _ => none

/-- The members of the object that makes up the whole text. -/
def parse? (text : String) : Option (List (String × String)) :=
  match readObject text.toList with
  | some (members, rest) => if (skipSpace rest).isEmpty then some members else none
  | none => none

/-- The handler map of a manifest. -/
def read (text : String) : Except Error HandlerMap :=
  match parse? text with
  | some members => .ok (.ofList members)
  | none => .error .malformedManifest

end BusReference.HandlerMap.Manifest
