import BusReference.Php.Lexeme
import BusReference.Text.Pieces
import BusReference.Text.WordCharacter

/-!
# Doc comments

What the reference takes from the raw text of a doc comment: the types in its `@return` and
`@param` tags and its summary, with the imports of a file that such a type may refer to. Tags are
found by their text alone, wherever it stands.
-/

namespace BusReference.DocComment

open BusReference.Text.Blank (isBlank trim)
open BusReference.Php.Lexeme.Reading (runLength)

/-- The first result at the start of the text or of one of its remainders. -/
def firstAt {α : Type} (read : List Char → Option α) : List Char → Option α
  | [] => read []
  | c :: cs =>
    match read (c :: cs) with
    | some result => some result
    | none => firstAt read cs

/-- The text after a keyword that it starts with. -/
def after? : (keyword cs : List Char) → Option (List Char)
  | [], cs => some cs
  | _ :: _, [] => none
  | k :: keyword, c :: cs => if c = k then after? keyword cs else none

/-- The text after the blanks that it starts with, at least one. -/
def afterBlanks? : List Char → Option (List Char)
  | [] => none
  | c :: cs => if isBlank c then some (cs.dropWhile isBlank) else none

/-- The characters up to the next blank, at least one, and the text from there on. -/
def word? (cs : List Char) : Option (List Char × List Char) :=
  let word := cs.takeWhile (!isBlank ·)
  if word.isEmpty then none else some (word, cs.drop word.length)

/-- The word after a tag at the start of the text, and what follows the word. -/
def tagged? (tag cs : List Char) : Option (List Char × List Char) :=
  match after? tag cs with
  | none => none
  | some rest =>
    match afterBlanks? rest with
    | none => none
    | some rest => word? rest

/-- The type in a `@return` tag at the start of the text. A blank has to follow it. -/
def returnTagAt? (cs : List Char) : Option (List Char) :=
  match tagged? "@return".toList cs with
  | some (type, _ :: _) => some type
  | _ => none

/-- The type in the first `@return` tag. -/
def returnTag? (doc : String) : Option String :=
  (firstAt returnTagAt? doc.toList).map String.ofList

/-- The type in a `@param` tag for the given variable at the start of the text. A blank has to
follow the variable. -/
def paramTagAt? (name cs : List Char) : Option (List Char) :=
  match tagged? "@param".toList cs with
  | none => none
  | some (type, rest) =>
    match afterBlanks? rest with
    | none => none
    | some rest =>
      match after? ('$' :: name) rest with
      | some (c :: _) => if isBlank c then some type else none
      | _ => none

/-- The type in the first `@param` tag for the variable of the given name. -/
def paramTag? (doc name : String) : Option String :=
  (firstAt (paramTagAt? name.toList) doc.toList).map String.ofList

/-- Whether the text starts with a semicolon after any blanks. -/
def endsStatement (cs : List Char) : Bool :=
  (cs.dropWhile isBlank).head? == some ';'

/-- The longest qualifier, of at most `n` characters and at least one, that the text starts with
and that `\` with the short name and the end of a statement follow. -/
def qualifier? (short cs : List Char) : Nat → Option (List Char)
  | 0 => none
  | n + 1 =>
    match after? ('\\' :: short) (cs.drop (n + 1)) with
    | some rest => if endsStatement rest then some (cs.take (n + 1)) else qualifier? short cs n
    | none => qualifier? short cs n

/-- The name with the given last segment that a `use` statement at the start of the text imports.
-/
def importAt? (short cs : List Char) : Option (List Char) :=
  match after? "use".toList cs with
  | none => none
  | some rest =>
    match afterBlanks? rest with
    | none => none
    | some rest =>
      (qualifier? short rest (runLength (!isBlank ·) rest)).map (· ++ '\\' :: short)

/-- The name with the given last segment that the first such `use` statement of a file imports. -/
def import? (source short : String) : Option String :=
  (firstAt (importAt? short.toList) source.toList).map String.ofList

/-- Splits the mark of an array off a type: `Foo[]` is an array of `Foo`. The element has no blanks
and is not empty. -/
def splitArray (type : String) : String × Bool :=
  match type.toList.reverse with
  | ']' :: '[' :: c :: cs =>
    if (c :: cs).all (!isBlank ·) then (String.ofList (c :: cs).reverse, true) else (type, false)
  | _ => (type, false)

/-- The length of what is no part of a summary at a place of a doc comment, from the character `c`
on; zero if the character is part of it. Noise are the slashes and stars of comment delimiters, all
other stars, line feeds, and tags with the rest of their lines. -/
def noiseLength (c : Char) (cs : List Char) : Nat :=
  if c = '/' then
    let slashes := runLength (· == '/') cs
    if ['*', '*'].isPrefixOf (cs.drop slashes) then slashes + 3 else 0
  else if c = '*' then
    let stars := runLength (· == '*') cs
    if (cs.drop stars).head? = some '/' then stars + 2 else 1
  else if c = '@' then
    let word := runLength Text.WordCharacter.isWord cs
    if word = 0 then 0 else 1 + word + runLength (· != '\n') (cs.drop word)
  else if c = '\n' then 1
  else 0

/-- The text without its noise. -/
def dropNoise : List Char → List Char
  | [] => []
  | c :: cs =>
    match noiseLength c cs with
    | 0 => c :: dropNoise cs
    | n + 1 => dropNoise (cs.drop n)
  termination_by cs => cs.length
  decreasing_by all_goals simp only [List.length_drop, List.length_cons]; omega

/-- The text with one space in place of every run of spaces. -/
def joinSpaces : List Char → List Char
  | ' ' :: ' ' :: cs => joinSpaces (' ' :: cs)
  | c :: cs => c :: joinSpaces cs
  | [] => []

/-- The summary of a doc comment: its text without tags and without the marks of the comment. -/
def summary (doc : String) : String :=
  String.ofList (trim (joinSpaces (dropNoise doc.toList)))

end BusReference.DocComment
