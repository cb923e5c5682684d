import BusReference.Text.Blank
import BusReference.Text.CaseFolding
import BusReference.Text.WordCharacter

/-!
# Regular expressions

Regular expressions over characters with capture groups. There are no references back to a group,
so whether and how far an expression matches at a place depends on the text alone.
-/

namespace BusReference

/-- A set of characters. -/
inductive CharSet where
  | empty
  | range (first last : Char)
  /-- A decimal digit of any script. -/
  | digit
  | blank
  /-- A character that may stand inside a word. -/
  | word
  | complement (s : CharSet)
  | union (s t : CharSet)
  | inter (s t : CharSet)
  /-- All characters that differ at most in case from one in the set. -/
  | anyCase (s : CharSet)
  deriving DecidableEq, Repr

namespace CharSet

/-- The set of one character. -/
def single (c : Char) : CharSet := range c c

/-- The characters of the first set that are not in the second one. -/
def diff (s t : CharSet) : CharSet := inter s (complement t)

/-- The characters of exactly one of the sets. -/
def symmDiff (s t : CharSet) : CharSet := union (diff s t) (diff t s)

/-- Whether a character is in the set. -/
def has (s : CharSet) (c : Char) : Bool :=
  match s with
  | empty => false
  | range first last => first ≤ c && c ≤ last
  | digit => Text.Letters.isDecimalDigit c
  | blank => Text.Blank.isBlank c
  | word => Text.WordCharacter.isWord c
  | complement s => !s.has c
  | union s t => s.has c || t.has c
  | inter s t => s.has c && t.has c
  | anyCase s => (Text.CaseFolding.variants c).any s.has

end CharSet

/-- A condition on a place of a text. -/
inductive Anchor where
  | textStart
  | textEnd
  | lineStart
  | lineEnd
  /-- One of the two neighbours is a word character, the other one is not. -/
  | wordBoundary
  | notWordBoundary
  | wordStart
  | wordEnd
  /-- No word character stands before the place. -/
  | wordStartHalf
  /-- No word character stands after the place. -/
  | wordEndHalf
  deriving DecidableEq, Repr

/-- A regular expression. -/
inductive Regex where
  /-- Matches the empty text. -/
  | empty
  | set (s : CharSet)
  | anchor (a : Anchor)
  | seq (r s : Regex)
  /-- Prefers the first alternative. -/
  | alt (r s : Regex)
  /-- Captures what the expression matches. -/
  | group (index : Nat) (r : Regex)
  /-- Repeats at least `least` times and, if there is a bound, at most `most` times. A greedy
  repetition prefers to go on, a lazy one to stop. -/
  | repetition (least : Nat) (most : Option Nat) (greedy : Bool) (r : Regex)
  deriving DecidableEq, Repr

namespace Regex

/-- Matches exactly the given characters. -/
def literal : List Char → Regex
  | [] => empty
  | [c] => set (.single c)
  | c :: cs => seq (set (.single c)) (literal cs)

/-- A repetition; one of no times at all is the empty expression. -/
def times (least : Nat) (most : Option Nat) (greedy : Bool) (r : Regex) : Regex :=
  if most = some 0 then empty else repetition least most greedy r

/-- The greatest number of a group, or zero. -/
def groupCount : Regex → Nat
  | empty | set _ | anchor _ => 0
  | seq r s | alt r s => max r.groupCount s.groupCount
  | group index r => max index r.groupCount
  | repetition _ _ _ r => r.groupCount

end Regex

end BusReference
