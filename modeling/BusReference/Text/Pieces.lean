/-!
# Pieces of texts

Cutting texts at a character, finding a text inside another one and replacing it.
-/

namespace BusReference.Text.Pieces

/-- The characters after the last separator; all of them if there is none. -/
def afterLast (separator : Char) (cs : List Char) : List Char :=
  (cs.reverse.takeWhile (· != separator)).reverse

/-- What stands before the first separator and what stands after it, if there is one. -/
def cutAt {α : Type} [DecidableEq α] (separator : α) : List α → Option (List α × List α)
  | [] => none
  | x :: xs =>
    if x = separator then some ([], xs)
    else (cutAt separator xs).map fun (before, after) => (x :: before, after)

/-- The stretches between the separators, empty ones among them; there is always at least one. -/
def splitOn {α : Type} [DecidableEq α] (separator : α) : List α → List (List α)
  | [] => [[]]
  | x :: xs =>
    if x = separator then [] :: splitOn separator xs
    else match splitOn separator xs with
      | first :: others => (x :: first) :: others
      | [] => [[x]]

/-- Whether `pattern` occurs in the text. -/
def occurs (pattern : List Char) : List Char → Bool
  | [] => pattern.isEmpty
  | c :: cs => pattern.isPrefixOf (c :: cs) || occurs pattern cs

/-- Replaces every occurrence of a non-empty pattern, from left to right and without overlaps. -/
def replaceAll (pattern replacement : List Char) (skip : Nat) : List Char → List Char
  | [] => []
  | c :: cs =>
    match skip with
    | skip + 1 => replaceAll pattern replacement skip cs
    | 0 =>
      if pattern.isPrefixOf (c :: cs) then
        replacement ++ replaceAll pattern replacement (pattern.length - 1) cs
      else c :: replaceAll pattern replacement 0 cs

/-- The text with every occurrence of a non-empty pattern replaced. -/
def replace (s pattern replacement : String) : String :=
  String.ofList (replaceAll pattern.toList replacement.toList 0 s.toList)

/-- The text without any leading copies of a character. -/
def dropLeading (c : Char) (s : String) : String :=
  String.ofList (s.toList.dropWhile (· == c))

/-- The same text up to the case of ASCII letters. -/
def sameLetters (s t : String) : Bool :=
  s.toLower == t.toLower

end BusReference.Text.Pieces
