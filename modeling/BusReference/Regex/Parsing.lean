import BusReference.Regex.ClassParsing

/-!
# Reading regular expressions

The notation of regular expressions: literals, classes, anchors, groups with and without capture,
alternatives, greedy and lazy repetitions, and flags. The text is read from left to right with the
open groups on a stack. Look-around and references to groups are refused.
-/

namespace BusReference.Regex.Parsing

/-- A part of a sequence. A switch of flags matches nothing and cannot be repeated. -/
inductive Item where
  | expression (r : Regex)
  | switch
  deriving DecidableEq, Repr

/-- An open group, or the whole expression: the flags to be restored at its end, its number if it
captures, its finished alternatives and the items of the current one, newest first. -/
structure Level where
  restore : Flags := {}
  index : Option Nat := none
  alternatives : List Regex := []
  items : List Item := []

namespace Level

/-- The expression of the current alternative. -/
def sequence (l : Level) : Regex :=
  l.items.foldl (fun rest item =>
    match item, rest with
    | .switch, rest => rest
    | .expression r, .empty => r
    | .expression r, rest => .seq r rest) .empty

/-- Starts another alternative. -/
def split (l : Level) : Level :=
  { l with alternatives := l.sequence :: l.alternatives, items := [] }

/-- The expression of all alternatives. -/
def value (l : Level) : Regex :=
  l.alternatives.foldl (fun rest r => .alt r rest) l.sequence

/-- Appends an item. -/
def push (l : Level) (item : Item) : Level := { l with items := item :: l.items }

/-- The expression of the closed group. -/
def close (l : Level) : Regex :=
  match l.index with
  | some index => .group index l.value
  | none => l.value

end Level

/-- What has been read: the flags in force, the number of captures, the names of groups, and the
innermost open group with those around it. -/
structure State where
  flags : Flags := {}
  captures : Nat := 0
  names : List String := []
  level : Level := {}
  outer : List Level := []

namespace State

/-- Appends an expression to the innermost group. -/
def push (st : State) (r : Regex) : State := { st with level := st.level.push (.expression r) }

/-- Opens a group. -/
def enter (st : State) (flags : Flags) (index : Option Nat) : State :=
  { st with flags, level := { restore := st.flags, index }, outer := st.level :: st.outer }

/-- Opens a group that captures. -/
def capture (st : State) : State :=
  { st.enter st.flags (some (st.captures + 1)) with captures := st.captures + 1 }

/-- Closes the innermost group. -/
def leave (st : State) : Option State :=
  match st.outer with
  | [] => none
  | next :: outer =>
    some { st with
      flags := st.level.restore, level := next.push (.expression st.level.close), outer }

/-- Repeats the last expression; a switch of flags cannot be repeated. -/
def repeatLast (st : State) (least : Nat) (most : Option Nat) (lazy : Bool) : Option State :=
  match st.level.items with
  | .expression r :: items =>
    let greedy := lazy == st.flags.swapGreed
    some { st with
      level := { st.level with items := .expression (times least most greedy r) :: items } }
  | _ => none

end State

/-- Reads the question mark that makes a repetition lazy. -/
def readLazy : List Char → Bool × List Char
  | '?' :: cs => (true, cs)
  | cs => (false, cs)

/-- The greatest bound of a repetition. -/
def maxBound : Nat := 0xffffffff

/-- Reads a number with any blanks around it. -/
def readNumber (cs : List Char) : Option Nat × List Char :=
  let cs := cs.dropWhile Text.Blank.isBlank
  let digits := cs.takeWhile Char.isDigit
  let value := digits.foldl (fun n c => 10 * n + (c.toNat - '0'.toNat)) 0
  (if digits.isEmpty || maxBound < value then none else some value,
    (cs.drop digits.length).dropWhile Text.Blank.isBlank)

/-- Reads the bounds of a repetition after the opening brace. -/
def readBounds (cs : List Char) : Option (Nat × Option Nat × List Char) :=
  match readNumber cs with
  | (some least, '}' :: rest) => some (least, some least, rest)
  | (some least, ',' :: '}' :: rest) => some (least, none, rest)
  | (some least, ',' :: rest) =>
    match readNumber rest with
    | (some most, '}' :: rest) => if least ≤ most then some (least, some most, rest) else none
    | _ => none
  | _ => none

/-- Sets or clears the flag of a letter. -/
def setFlag (flags : Flags) (letter : Char) (value : Bool) : Option Flags :=
  match letter with
  | 'i' => some { flags with anyCase := value }
  | 'm' => some { flags with multiLine := value }
  | 's' => some { flags with dotAll := value }
  | 'U' => some { flags with swapGreed := value }
  | 'x' => some { flags with extended := value }
  | 'u' => if value then some flags else none
  | _ => none

/-- Reads the letters of flags up to a colon or a closing parenthesis, which is returned. `seen`
are the letters read so far, newest first; none may occur twice, and one hyphen, which a letter has
to follow, turns from setting to clearing. -/
def readFlags (flags : Flags) (seen : List Char) : List Char → Option (Flags × List Char)
  | [] => none
  | c :: cs =>
    if c = ':' ∨ c = ')' then
      if seen.head? = some '-' then none else some (flags, c :: cs)
    else if seen.contains c then none
    else if c = '-' then readFlags flags ('-' :: seen) cs
    else match setFlag flags c (!seen.contains '-') with
      | some flags => readFlags flags (c :: seen) cs
      | none => none

/-- A character that may start the name of a group. -/
def isNameStart (c : Char) : Bool := c == '_' || Text.Letters.isAlphabetic c

/-- A character that may go on in the name of a group. -/
def isNameChar (c : Char) : Bool :=
  c == '_' || c == '.' || c == '[' || c == ']' || Text.Letters.isAlphanumeric c

/-- Reads the name of a capturing group after its angle bracket. No name may be used twice. -/
def readName (st : State) (cs : List Char) : Option (State × List Char) :=
  let name := cs.takeWhile (· != '>')
  match name, cs.drop name.length with
  | c :: more, _ :: rest =>
    if isNameStart c && more.all isNameChar && !st.names.contains (String.ofList name) then
      some ({ st.capture with names := String.ofList name :: st.names }, rest)
    else none
  | _, _ => none

/-- Reads the start of a group after its parenthesis, or a switch of flags. -/
def readGroup (st : State) (cs : List Char) : Option (State × List Char) :=
  match cs with
  | '?' :: '<' :: '=' :: _ | '?' :: '<' :: '!' :: _ => none
  | '?' :: 'P' :: '<' :: rest | '?' :: '<' :: rest => readName st rest
  | '?' :: rest =>
    match readFlags st.flags [] rest with
    | some (flags, ':' :: after) => some (st.enter flags none, after)
    | some (flags, ')' :: after) =>
      if rest.head? = some ')' then none
      else some ({ st with flags, level := st.level.push .switch }, after)
    | _ => none
  | cs => some (st.capture, cs)

/-- The expression of an escape. -/
def ofEscape (flags : Flags) : Escape → Regex
  | .char c => .set (flags.fold (.single c))
  | .set s => .set s
  | .anchor a => .anchor a

/-- Reads the next part, which starts with `c`. -/
def step (st : State) (c : Char) (cs : List Char) : Option (State × List Char) :=
  match c with
  | '(' => readGroup st cs
  | ')' => st.leave.map (·, cs)
  | '|' => some ({ st with level := st.level.split }, cs)
  | '[' => (ClassParsing.read st.flags cs).map fun (s, rest) => (st.push (.set s), rest)
  | '?' => (st.repeatLast 0 (some 1) (readLazy cs).1).map (·, (readLazy cs).2)
  | '*' => (st.repeatLast 0 none (readLazy cs).1).map (·, (readLazy cs).2)
  | '+' => (st.repeatLast 1 none (readLazy cs).1).map (·, (readLazy cs).2)
  | '{' =>
    match readBounds cs with
    | some (least, most, rest) =>
      (st.repeatLast least most (readLazy rest).1).map (·, (readLazy rest).2)
    | none => none
  | '.' =>
    some (st.push (.set (.complement (if st.flags.dotAll then .empty else .single '\n'))), cs)
  | '^' => some (st.push (.anchor (if st.flags.multiLine then .lineStart else .textStart)), cs)
  | '$' => some (st.push (.anchor (if st.flags.multiLine then .lineEnd else .textEnd)), cs)
  | '\\' => (Escape.read cs).map fun (e, rest) => (st.push (ofEscape st.flags e), rest)
  | c =>
    if st.flags.extended && Text.Blank.isBlank c then some (st, cs)
    else if st.flags.extended && c == '#' then some (st, cs.dropWhile (· != '\n'))
    else some (st.push (.set (st.flags.fold (.single c))), cs)

/-- Reads the rest of an expression. Every step consumes something; a group that is never closed is
refused. -/
def readAll (st : State) (cs : List Char) : Option Regex :=
  match cs with
  | [] => if st.outer.isEmpty then some st.level.value else none
  | c :: cs =>
    match step st c cs with
    | some (st, rest) => if rest.length ≤ cs.length then readAll st rest else none
    | none => none
  termination_by cs.length

/-- A rough measure of the automaton for a set, in bytes. -/
def setCost : CharSet → Nat
  | .empty => 32
  | .range _ _ => 40
  | .digit => 3000
  | .blank => 600
  | .word => 45000
  | .complement s => setCost s + 400
  | .union s t | .inter s t => setCost s + setCost t
  | .anyCase s => 2 * setCost s

/-- A rough measure of the automaton for an expression, in bytes. -/
def cost : Regex → Nat
  | .empty | .anchor _ => 32
  | .set s => setCost s
  | .seq r s => cost r + cost s
  | .alt r s => cost r + cost s + 40
  | .group _ r => cost r + 64
  | .repetition least most _ r => (cost r + 40) * max 1 (max least (most.getD 0))

/-- The greatest allowed measure. -/
def maxCost : Nat := 0xa00000

end Parsing

/-- Reads a regular expression. One whose automaton would be very large is refused. -/
def parse? (pattern : String) : Option Regex :=
  match Parsing.readAll {} pattern.toList with
  | some r => if Parsing.cost r ≤ Parsing.maxCost then some r else none
  | none => none

end BusReference.Regex
