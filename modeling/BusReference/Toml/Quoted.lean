import BusReference.Text.Hex

/-!
# Quoted texts

The strings of a TOML file. Double quotes allow escapes, single quotes do not; three quotes allow
line breaks.
-/

namespace BusReference.Toml

/-- A space or a tab. -/
def isSpace (c : Char) : Bool := c == ' ' || c == '\t'

/-- The text after the spaces and tabs at its start. -/
def skipSpaces (cs : List Char) : List Char := cs.dropWhile isSpace

/-- A character that may stand in a line: no control character but the tab. -/
def isLineChar (c : Char) : Bool :=
  c == '\t' || (0x20 ≤ c.toNat && c.toNat != 0x7f)

/-- The text after the line break at its start. -/
def lineBreak? : List Char → Option (List Char)
  | '\n' :: cs => some cs
  | '\r' :: '\n' :: cs => some cs
  | _ => none

namespace Quoted

/-- The character that a letter after a backslash stands for. -/
def escaped? : Char → Option Char
  | 'b' => some '\x08'
  | 't' => some '\t'
  | 'n' => some '\n'
  | 'f' => some '\x0c'
  | 'r' => some '\r'
  | '"' => some '"'
  | '\\' => some '\\'
  | _ => none

/-- The character of a code point with the given number of hexadecimal digits. -/
def readCode (count : Nat) (cs : List Char) : Option (Char × List Char) :=
  if cs.length < count then none
  else (Text.Hex.char? (cs.take count)).map (·, cs.drop count)

/-- What an escape stands for, after its backslash. -/
def readEscape : List Char → Option (Char × List Char)
  | 'u' :: cs => readCode 4 cs
  | 'U' :: cs => readCode 8 cs
  | c :: cs => (escaped? c).map (·, cs)
  | [] => none

/-- One character within quotes, which may be escaped. -/
def readCharacter (escapes : Bool) : List Char → Option (Char × List Char)
  | [] => none
  | c :: cs =>
    if escapes && c == '\\' then readEscape cs
    else if isLineChar c then some (c, cs)
    else none

/-- The rest of a text within single or double quotes in one line, and what follows it. -/
def readLine (quote : Char) (cs : List Char) : Option (List Char × List Char) :=
  if cs.head? = some quote then some ([], cs.tail)
  else
    match readCharacter (quote == '"') cs with
    | none => none
    | some (c, rest) =>
      if rest.length < cs.length then (readLine quote rest).map fun (s, rest) => (c :: s, rest)
      else none
  termination_by cs.length

/-- A blank or a line break. -/
def isGap (c : Char) : Bool := isSpace c || c == '\n' || c == '\r'

/-- The text after a backslash at the end of a line: blanks and line breaks, at least one of
these, are passed over. -/
def joinedLine? (cs : List Char) : Option (List Char) :=
  (lineBreak? (skipSpaces cs)).map fun rest => rest.dropWhile isGap

/-- One character, or none, of a text within three quotes. -/
def readPiece (quote : Char) (cs : List Char) : Option (List Char × List Char) :=
  match lineBreak? cs with
  | some rest => some (['\n'], rest)
  | none =>
    match if quote = '"' ∧ cs.head? = some '\\' then joinedLine? cs.tail else none with
    | some rest => some ([], rest)
    | none => (readCharacter (quote == '"') cs).map fun (c, rest) => ([c], rest)

/-- The number of quotes at the start of a text. -/
def quotes (quote : Char) (cs : List Char) : Nat := (cs.takeWhile (· == quote)).length

/-- The rest of a text within three quotes, and what follows it. Up to two more quotes may stand
directly before the closing ones, and up to two anywhere in the text. -/
def readLines (quote : Char) (cs : List Char) : Option (List Char × List Char) :=
  let count := quotes quote cs
  if 3 ≤ count then
    if count ≤ 5 then some (List.replicate (count - 3) quote, cs.drop count) else none
  else
    match readPiece quote (cs.drop count) with
    | none => none
    | some (piece, rest) =>
      if rest.length < cs.length then
        (readLines quote rest).map fun (s, rest) =>
          (List.replicate count quote ++ piece ++ s, rest)
      else none
  termination_by cs.length

/-- A text within quotes, from its first quote on, and what follows it. A line break directly after
three quotes does not count. -/
def read (quote : Char) (cs : List Char) : Option (List Char × List Char) :=
  match quotes quote cs with
  | 0 => none
  | 1 => readLine quote (cs.drop 1)
  | 2 => some ([], cs.drop 2)
  | _ =>
    let rest := cs.drop 3
    readLines quote ((lineBreak? rest).getD rest)

end Quoted

end BusReference.Toml
