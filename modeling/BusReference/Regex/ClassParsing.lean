import BusReference.Regex.Basic
import BusReference.Text.Hex

/-!
# Reading escapes and bracketed classes

The parts of the notation of regular expressions that stand for one character, for a set of
characters or for an anchor: escapes, and classes in square brackets with their ranges, nested
classes and set operations.
-/

namespace BusReference.Regex

/-- The switches that a group can set. -/
structure Flags where
  /-- Letters match in any case. -/
  anyCase : Bool := false
  /-- `^` and `$` match at lines as well. -/
  multiLine : Bool := false
  /-- The dot matches a line feed, too. -/
  dotAll : Bool := false
  /-- A question mark after a repetition makes it greedy rather than lazy. -/
  swapGreed : Bool := false
  /-- Blanks and comments between the parts are ignored. -/
  extended : Bool := false
  deriving DecidableEq, Repr

namespace Flags

/-- A set of characters as the flags have it. -/
def fold (flags : Flags) (s : CharSet) : CharSet :=
  if flags.anyCase then .anyCase s else s

end Flags

/-- What an escape stands for. -/
inductive Escape where
  | char (c : Char)
  | set (s : CharSet)
  | anchor (a : Anchor)
  deriving DecidableEq, Repr

namespace Escape

/-- Reads a code point of a fixed number of digits, or of any number of them in braces. -/
def readHex (count : Nat) (cs : List Char) : Option (Escape × List Char) :=
  match cs with
  | '{' :: cs =>
    let digits := cs.takeWhile (· != '}')
    match cs.drop digits.length with
    | _ :: rest => (Text.Hex.char? digits).map fun c => (.char c, rest)
    | [] => none
  | cs =>
    if cs.length < count then none
    else (Text.Hex.char? (cs.take count)).map fun c => (.char c, cs.drop count)

/-- A punctuation mark that has a meaning in the notation. -/
def isMeta (c : Char) : Bool :=
  ['\\', '.', '+', '*', '?', '(', ')', '|', '[', ']', '\x7b', '\x7d', '^', '$', '#', '&', '-',
    '~'].contains c

/-- A character that a backslash makes stand for itself: any ASCII character but letters, digits
and angle brackets. -/
def isEscapable (c : Char) : Bool :=
  isMeta c || (c.toNat < 0x80 && !c.isAlphanum && c != '<' && c != '>')

/-- The word boundary that a name in braces selects. -/
def boundary? (name : String) : Option Anchor :=
  match name with
  | "start" => some .wordStart
  | "end" => some .wordEnd
  | "start-half" => some .wordStartHalf
  | "end-half" => some .wordEndHalf
  | _ => none

/-- Reads what follows the escape for a word boundary: the name of a kind of boundary in braces, if
any. Braces with a number are left for the repetition that they are. -/
def readBoundary (cs : List Char) : Option (Escape × List Char) :=
  match cs with
  | '{' :: inner =>
    let name := inner.takeWhile fun c => c.isAlpha || c == '-'
    match name, inner.drop name.length with
    | [], _ => some (.anchor .wordBoundary, cs)
    | name, '}' :: rest => (boundary? (String.ofList name)).map fun a => (.anchor a, rest)
    | _, _ => none
  | cs => some (.anchor .wordBoundary, cs)

/-- Reads an escape after its backslash. There are no references to groups. -/
def read : List Char → Option (Escape × List Char)
  | [] => none
  | 'x' :: cs => readHex 2 cs
  | 'u' :: cs => readHex 4 cs
  | 'U' :: cs => readHex 8 cs
  | 'd' :: cs => some (.set .digit, cs)
  | 's' :: cs => some (.set .blank, cs)
  | 'w' :: cs => some (.set .word, cs)
  | 'D' :: cs => some (.set (.complement .digit), cs)
  | 'S' :: cs => some (.set (.complement .blank), cs)
  | 'W' :: cs => some (.set (.complement .word), cs)
  | 'a' :: cs => some (.char '\x07', cs)
  | 'f' :: cs => some (.char '\x0c', cs)
  | 't' :: cs => some (.char '\t', cs)
  | 'n' :: cs => some (.char '\n', cs)
  | 'r' :: cs => some (.char '\r', cs)
  | 'v' :: cs => some (.char '\x0b', cs)
  | 'A' :: cs => some (.anchor .textStart, cs)
  | 'z' :: cs => some (.anchor .textEnd, cs)
  | 'b' :: cs => readBoundary cs
  | 'B' :: cs => some (.anchor .notWordBoundary, cs)
  | '<' :: cs => some (.anchor .wordStart, cs)
  | '>' :: cs => some (.anchor .wordEnd, cs)
  | c :: cs => if isEscapable c then some (.char c, cs) else none

end Escape

namespace ClassParsing

/-- The ranges of ASCII characters that a name in `[:name:]` stands for. -/
def asciiRanges? (name : String) : Option (List (Char × Char)) :=
  match name with
  | "alnum" => some [('0', '9'), ('A', 'Z'), ('a', 'z')]
  | "alpha" => some [('A', 'Z'), ('a', 'z')]
  | "ascii" => some [('\x00', '\x7f')]
  | "blank" => some [('\t', '\t'), (' ', ' ')]
  | "cntrl" => some [('\x00', '\x1f'), ('\x7f', '\x7f')]
  | "digit" => some [('0', '9')]
  | "graph" => some [('!', '~')]
  | "lower" => some [('a', 'z')]
  | "print" => some [(' ', '~')]
  | "punct" => some [('!', '/'), (':', '@'), ('[', '\x60'), ('\x7b', '~')]
  | "space" => some [('\t', '\r'), (' ', ' ')]
  | "upper" => some [('A', 'Z')]
  | "word" => some [('0', '9'), ('A', 'Z'), ('_', '_'), ('a', 'z')]
  | "xdigit" => some [('0', '9'), ('A', 'F'), ('a', 'f')]
  | _ => none

/-- The set of the characters in one of the ranges. -/
def ofRanges (ranges : List (Char × Char)) : CharSet :=
  ranges.foldl (fun s r => .union s (.range r.1 r.2)) .empty

/-- Reads a named class of ASCII characters after its opening bracket. -/
def readNamed (flags : Flags) : List Char → Option (CharSet × List Char)
  | ':' :: cs =>
    let negated := cs.head? == some '^'
    let named := if negated then cs.drop 1 else cs
    let name := named.takeWhile (· != ':')
    match named.drop name.length with
    | ':' :: ']' :: rest =>
      (asciiRanges? (String.ofList name)).map fun ranges =>
        let s := flags.fold (ofRanges ranges)
        (if negated then .complement s else s, rest)
    | _ => none
  | _ => none

/-- An operation on two sets. -/
inductive SetOp where
  | inter
  | diff
  | symmDiff
  deriving DecidableEq, Repr

/-- The result of an operation, whose operands are folded first. -/
def SetOp.apply (flags : Flags) (op : SetOp) (s t : CharSet) : CharSet :=
  match op with
  | inter => .inter (flags.fold s) (flags.fold t)
  | diff => .diff (flags.fold s) (flags.fold t)
  | symmDiff => .symmDiff (flags.fold s) (flags.fold t)

/-- An open class: its members since the last operator, and the operator with what is before it. -/
structure Level where
  negated : Bool
  members : CharSet := .empty
  operation : Option (SetOp × CharSet) := none

namespace Level

/-- Adds characters to the class. -/
def add (l : Level) (s : CharSet) : Level :=
  { l with members := .union l.members s }

/-- The value of the class up to here, without its negation. -/
def value (flags : Flags) (l : Level) : CharSet :=
  match l.operation with
  | some (op, s) => op.apply flags s l.members
  | none => l.members

/-- Takes up an operator. -/
def operate (flags : Flags) (op : SetOp) (l : Level) : Level :=
  { negated := l.negated, operation := some (op, l.value flags) }

/-- The set of the closed class. -/
def close (flags : Flags) (l : Level) : CharSet :=
  let s := flags.fold (l.value flags)
  if l.negated then .complement s else s

end Level

/-- Drops the blanks and comments that do not count. -/
def dropIgnored (flags : Flags) (cs : List Char) : List Char :=
  if flags.extended then dropBlanks cs.length cs else cs
where
  /-- Drops blanks and comments, of which there are at most as many as characters. -/
  dropBlanks : Nat → List Char → List Char
    | 0, cs => cs
    | _ + 1, [] => []
    | n + 1, c :: cs =>
      if Text.Blank.isBlank c then dropBlanks n cs
      else if c = '#' then dropBlanks n (cs.dropWhile (· != '\n'))
      else c :: cs

/-- Opens a class after its bracket. A caret negates it; hyphens at its start and then a closing
bracket are plain members. -/
def openLevel (flags : Flags) (cs : List Char) : Level × List Char :=
  let cs := dropIgnored flags cs
  let negated := cs.head? == some '^'
  let cs := if negated then dropIgnored flags (cs.drop 1) else cs
  let hyphens := cs.takeWhile (· == '-')
  let cs := cs.drop hyphens.length
  let level : Level := { negated }
  match hyphens, cs with
  | [], ']' :: rest => (level.add (.single ']'), rest)
  | [], cs => (level, cs)
  | _, cs => (level.add (.single '-'), cs)

/-- Reads a single member: a character or an escape. -/
def readMember : List Char → Option (Escape × List Char)
  | [] => none
  | '\\' :: cs => Escape.read cs
  | c :: cs => some (.char c, cs)

/-- Reads a member or a range. A hyphen before the closing bracket or before another hyphen makes no
range. -/
def readRange (flags : Flags) (cs : List Char) : Option (CharSet × List Char) :=
  match readMember cs with
  | none => none
  | some (first, rest) =>
    let single : Option (CharSet × List Char) :=
      match first with
      | .char c => some (.single c, dropIgnored flags rest)
      | .set s => some (s, dropIgnored flags rest)
      | .anchor _ => none
    match dropIgnored flags rest with
    | '-' :: after =>
      match dropIgnored flags after with
      | ']' :: _ | '-' :: _ => single
      | after =>
        match first, readMember after with
        | .char c, some (.char d, rest) => if c ≤ d then some (.range c d, rest) else none
        | _, _ => none
    | _ => single

/-- What one step of reading a class leads to. -/
inductive Step where
  | closed (s : CharSet) (rest : List Char)
  | open (levels : List Level) (rest : List Char)

/-- Reads the next part of the innermost of the open classes. -/
def step (flags : Flags) (level : Level) (outer : List Level) (cs : List Char) : Option Step :=
  match dropIgnored flags cs with
  | [] => none
  | ']' :: rest =>
    match outer with
    | [] => some (.closed (level.close flags) rest)
    | next :: outer => some (.open (next.add (level.close flags) :: outer) rest)
  | '[' :: rest =>
    match readNamed flags rest with
    | some (s, rest) => some (.open (level.add s :: outer) rest)
    | none =>
      match openLevel flags rest with
      | (inner, rest) => some (.open (inner :: level :: outer) rest)
  | '&' :: '&' :: rest => some (.open (level.operate flags .inter :: outer) rest)
  | '-' :: '-' :: rest => some (.open (level.operate flags .diff :: outer) rest)
  | '~' :: '~' :: rest => some (.open (level.operate flags .symmDiff :: outer) rest)
  | cs => (readRange flags cs).map fun (s, rest) => .open (level.add s :: outer) rest

/-- Reads the rest of the open classes, of which the first is the innermost. Every step consumes
something; a class that is never closed is refused. -/
def readLevels (flags : Flags) (levels : List Level) (cs : List Char) :
    Option (CharSet × List Char) :=
  match levels with
  | [] => none
  | level :: outer =>
    match step flags level outer cs with
    | none => none
    | some (.closed s rest) => some (s, rest)
    | some (.open levels rest) =>
      if rest.length < cs.length then readLevels flags levels rest else none
  termination_by cs.length

/-- Reads a class after its opening bracket. -/
def read (flags : Flags) (cs : List Char) : Option (CharSet × List Char) :=
  match openLevel flags cs with
  | (level, rest) => readLevels flags [level] rest

end ClassParsing

end BusReference.Regex
