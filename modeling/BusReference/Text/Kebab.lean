import BusReference.Text.CaseMapping
import BusReference.Text.Letters

/-!
# Kebab case

An identifier in lower case with hyphens between its words, as used for file names and anchors.
A word starts at every capital after a small letter, and at the last capital of an acronym that
opens a word and runs into a small letter: `XMLHttpRequest` is `xml-http-request`.
-/

namespace BusReference.Text.Kebab

open BusReference.Text.Letters

/-- Whether the run of capitals that ends the text read so far opens a word. The text is given
with its nearest character first. -/
def acronymOpensWord (before : List Char) : Bool :=
  match before.dropWhile isUppercase with
  | [] => true
  | c :: _ => !isAlphanumeric c

/-- Whether a new word starts at `c`, between the text `before` it, nearest character first, and
the text `after` it. -/
def opensWord (before : List Char) (c : Char) (after : List Char) : Bool :=
  match before with
  | [] => false
  | previous :: _ =>
    isUppercase c &&
      (isLowercase previous ||
        (isUppercase previous && after.head?.any isLowercase && acronymOpensWord before))

/-- The kebab-case form of `after`, of which `before` is what precedes it, nearest first. -/
def kebabAfter : (before after : List Char) → List Char
  | _, [] => []
  | before, c :: after =>
    (if opensWord before c after then ['-'] else []) ++ CaseMapping.lower c ++
      kebabAfter (c :: before) after

/-- The kebab-case form of an identifier. Hyphens of the identifier are kept; an inserted one
stands between two letters and so never beside another hyphen. -/
def kebab (identifier : String) : String :=
  String.ofList (kebabAfter [] identifier.toList)

end BusReference.Text.Kebab
