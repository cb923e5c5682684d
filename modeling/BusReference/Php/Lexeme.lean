import BusReference.Php.Token
import BusReference.Text.Blank

/-!
# Lexemes of PHP source text

A source text is read as a sequence of lexemes, among them those that are no tokens: blanks,
comments, opening tags and the text outside of PHP tags. A lexeme is given by its shape and by the
number of its characters, so reading on from its end neither loses nor repeats a character.
-/

namespace BusReference.Php

/-- What a lexeme is. -/
inductive Shape where
  | openTag
  /-- A closing tag and the text after it, up to the next opening tag. -/
  | inlineText
  | blank
  | lineComment
  | blockComment
  | docComment
  | attributeOpen
  | quoted
  | heredoc
  | variable
  | ellipsis
  | number
  | name
  | punct
  deriving DecidableEq, Repr

/-- A construct that needs a terminator. -/
inductive Construct where
  | comment
  | string
  | heredoc
  deriving DecidableEq, Repr

/-- A lexeme: its shape and its characters. -/
structure Lexeme where
  shape : Shape
  text : List Char
  deriving DecidableEq, Repr

namespace Lexeme

/-- The token that a lexeme stands for, if it does. -/
def token? (x : Lexeme) : Option Token :=
  match x.shape with
  | .openTag | .inlineText | .blank | .lineComment | .blockComment => none
  | .docComment => some (.docComment (String.ofList x.text))
  | .attributeOpen => some .attributeOpen
  | .quoted | .heredoc => some (.literal (String.ofList x.text))
  | .variable => some (.variable (String.ofList x.text.tail))
  | .ellipsis => some .ellipsis
  | .number => some (.number (String.ofList x.text))
  | .name => some (.name (String.ofList x.text))
  | .punct => x.text.head?.map .punct

end Lexeme

namespace Lexeme.Reading

/-- A character that may start a name: an ASCII letter, an underscore or anything beyond ASCII. -/
def isNameStart (c : Char) : Bool :=
  c.isAlpha || c == '_' || 0x80 ≤ c.toNat

/-- A character that may go on in a name: one that may start it, or a digit. -/
def isNameChar (c : Char) : Bool :=
  isNameStart c || c.isDigit

/-- A character of a number after its first one. -/
def isNumberChar (c : Char) : Bool :=
  c.isAlphanum || c == '_' || c == '.'

/-- A blank that may stand before the closing label of a heredoc. -/
def isIndent (c : Char) : Bool :=
  c == ' ' || c == '\t'

/-- The length of the longest start of the text whose characters pass the test. -/
def runLength (p : Char → Bool) (cs : List Char) : Nat :=
  (cs.takeWhile p).length

/-- The number of characters before the end of the line. -/
def lineLength (cs : List Char) : Nat :=
  runLength (· != '\n') cs

/-- The opening tag of a stretch of PHP. -/
def openTag : List Char := ['<', '?', 'p', 'h', 'p']

/-- The number of characters before the next opening tag or the end of the text. -/
def inlineLength : List Char → Nat
  | [] => 0
  | c :: cs => if openTag.isPrefixOf (c :: cs) then 0 else inlineLength cs + 1

/-- The number of characters up to and including the first end of a comment. -/
def commentLength : List Char → Option Nat
  | [] => none
  | '*' :: '/' :: _ => some 2
  | _ :: cs => (commentLength cs).map (· + 1)

/-- The number of characters up to and including the closing quote. A backslash takes the
character after it along. -/
def quotedLength (quote : Char) : List Char → Option Nat
  | [] => none
  | ['\\'] => none
  | '\\' :: _ :: cs => (quotedLength quote cs).map (· + 2)
  | c :: cs => if c = quote then some 1 else (quotedLength quote cs).map (· + 1)

/-- Whether a line, without its indentation, starts with the closing label of a heredoc. -/
def closesHeredoc (label line : List Char) : Bool :=
  label.isPrefixOf line && !(line.drop label.length).head?.any isNameChar

/-- The number of characters from the end of a line to the end of the closing label of a heredoc.
-/
def heredocBodyLength (label : List Char) : List Char → Option Nat
  | [] => none
  | _ :: cs =>
    let indent := runLength isIndent cs
    let line := cs.drop indent
    if closesHeredoc label line then some (1 + indent + label.length)
    else
      let n := lineLength line
      (heredocBodyLength label (line.drop n)).map (1 + indent + n + ·)
  termination_by cs => cs.length
  decreasing_by simp only [List.length_drop, List.length_cons]; omega

/-- The length of what stands between `<<<` and the label of a heredoc: indentation and at most
one quote. -/
def heredocLeadLength (cs : List Char) : Nat :=
  let indent := runLength isIndent cs
  if (cs.drop indent).head?.any (fun c => c == '\'' || c == '"') then indent + 1 else indent

/-- The number of characters of a heredoc after its `<<<`, or none if no label follows; the inner
option is none if the closing label is missing. -/
def heredocLength? (cs : List Char) : Option (Option Nat) :=
  let lead := heredocLeadLength cs
  let labelled := cs.drop lead
  let label := labelled.takeWhile isNameChar
  if label.isEmpty then none
  else
    let opened := lead + label.length + lineLength (labelled.drop label.length)
    some ((heredocBodyLength label (cs.drop opened)).map (opened + ·))

/-- The number of characters of a qualified name. A backslash belongs to it if a name or the
brace of a group of imports follows. -/
def nameLength : List Char → Nat
  | [] => 0
  | [c] => if isNameChar c then 1 else 0
  | c :: d :: cs =>
    if isNameChar c || (c == '\\' && (isNameStart d || d == '{')) then nameLength (d :: cs) + 1
    else 0

/-- Whether the text after the opening `/*` makes the comment a doc comment: one more star follows,
and the comment is more than `/**/`. -/
def isDocComment (length : Nat) (cs : List Char) : Bool :=
  cs.head? == some '*' && 2 < length

/-- The shape of the lexeme that starts with `c`, and the number of its characters in `cs`, the
text after `c`. Fails with the construct that has no terminator. -/
def measure (c : Char) (cs : List Char) : Except Construct (Shape × Nat) :=
  if openTag.isPrefixOf (c :: cs) then .ok (.openTag, 4)
  else if c = '?' ∧ cs.head? = some '>' then .ok (.inlineText, 1 + inlineLength cs.tail)
  else if Text.Blank.isBlank c then .ok (.blank, 0)
  else if c = '/' ∧ cs.head? = some '/' then .ok (.lineComment, lineLength cs)
  else if c = '#' then
    if cs.head? = some '[' then .ok (.attributeOpen, 1) else .ok (.lineComment, lineLength cs)
  else if c = '/' ∧ cs.head? = some '*' then
    match commentLength cs.tail with
    | none => .error .comment
    | some n =>
      .ok (if isDocComment n cs.tail then .docComment else .blockComment, n + 1)
  else if c = '\'' ∨ c = '"' ∨ c = '`' then
    match quotedLength c cs with
    | none => .error .string
    | some n => .ok (.quoted, n)
  else if c = '<' ∧ ['<', '<'].isPrefixOf cs then
    match heredocLength? (cs.drop 2) with
    | none => .ok (.punct, 0)
    | some none => .error .heredoc
    | some (some n) => .ok (.heredoc, n + 2)
  else if c = '$' ∧ cs.head?.any isNameStart then .ok (.variable, runLength isNameChar cs)
  else if c = '.' ∧ ['.', '.'].isPrefixOf cs then .ok (.ellipsis, 2)
  else if c.isDigit ∨ (c = '.' ∧ cs.head?.any Char.isDigit) then
    .ok (.number, runLength isNumberChar cs)
  else if isNameStart c ∨ (c = '\\' ∧ cs.head?.any isNameStart) then .ok (.name, nameLength cs)
  else .ok (.punct, 0)

end Lexeme.Reading

/-- A construct that is not terminated, and the line on which it starts. -/
structure LexicalFault where
  construct : Construct
  line : Nat
  deriving DecidableEq, Repr

namespace Lexeme

/-- The lexemes of a text whose first character stands on the given line. -/
def readFrom (line : Nat) : List Char → Except LexicalFault (List Lexeme)
  | [] => .ok []
  | c :: cs =>
    match Reading.measure c cs with
    | .error construct => .error ⟨construct, line⟩
    | .ok (shape, n) =>
      let text := c :: cs.take n
      match readFrom (line + text.count '\n') (cs.drop n) with
      | .error fault => .error fault
      | .ok lexemes => .ok (⟨shape, text⟩ :: lexemes)
  termination_by cs => cs.length
  decreasing_by simp only [List.length_drop, List.length_cons]; omega

/-- The lexemes of a source text. -/
def read (cs : List Char) : Except LexicalFault (List Lexeme) := readFrom 1 cs

end Lexeme

namespace Token

/-- The tokens of a source text. -/
def read (source : String) : Except LexicalFault (List Token) :=
  (Lexeme.read source.toList).map (·.filterMap Lexeme.token?)

end Token

end BusReference.Php
