import BusReference.Regex.Basic

/-!
# Matching

All ways in which a regular expression matches at a place of a text, the preferred one first. Of
several ways that end at one place only the first is kept: what follows the expression fares alike
after all of them, so the others would never be chosen. The search takes the first place from the
left at which there is a match, and the preferred match there.
-/

namespace BusReference.Regex

/-- A place in a text: the characters before it, nearest first, and those after it. -/
structure Place where
  before : List Char
  after : List Char
  deriving DecidableEq, Repr

/-- The texts of the groups that have matched, latest first. -/
abbrev Captures := List (Nat × List Char)

/-- A way to match: the place where the match ends and the groups in it. -/
structure Outcome where
  place : Place
  captures : Captures
  deriving DecidableEq, Repr

namespace Place

/-- Whether a word character stands before the place. -/
def afterWord (p : Place) : Bool := p.before.head?.any Text.WordCharacter.isWord

/-- Whether a word character stands after the place. -/
def beforeWord (p : Place) : Bool := p.after.head?.any Text.WordCharacter.isWord

/-- Whether the place satisfies an anchor. -/
def satisfies (p : Place) : Anchor → Bool
  | .textStart => p.before.isEmpty
  | .textEnd => p.after.isEmpty
  | .lineStart => p.before.isEmpty || p.before.head? == some '\n'
  | .lineEnd => p.after.isEmpty || p.after.head? == some '\n'
  | .wordBoundary => p.afterWord != p.beforeWord
  | .notWordBoundary => p.afterWord == p.beforeWord
  | .wordStart => !p.afterWord && p.beforeWord
  | .wordEnd => p.afterWord && !p.beforeWord
  | .wordStartHalf => !p.afterWord
  | .wordEndHalf => !p.beforeWord

/-- The text from a place to a later one. -/
def upTo (p q : Place) : List Char :=
  p.after.take (p.after.length - q.after.length)

end Place

namespace Outcome

/-- The way to match nothing. -/
def stay (p : Place) : Outcome := ⟨p, []⟩

/-- The outcomes without those that end where an earlier one ends. -/
def dropRepeats : List Outcome → List Outcome
  | [] => []
  | o :: os => o :: (dropRepeats os).filter (·.place.after.length != o.place.after.length)

/-- Continues each outcome in all ways that the function gives for its place. -/
def extend (os : List Outcome) (next : Place → List Outcome) : List Outcome :=
  dropRepeats (os.flatMap fun o =>
    (next o.place).map fun n => { n with captures := n.captures ++ o.captures })

end Outcome

open Outcome (stay dropRepeats extend)

/-- The ways to go on or to stop, in the order of preference. -/
def prefer (greedy : Bool) (goOn stop : List Outcome) : List Outcome :=
  dropRepeats (if greedy then goOn ++ stop else stop ++ goOn)

/-- The ways to match `body` exactly `n` times. -/
def exactly (body : Place → List Outcome) : Nat → Place → List Outcome
  | 0, p => [stay p]
  | n + 1, p => extend (body p) (exactly body n)

/-- The ways to match `body` at most `n` times. -/
def atMost (greedy : Bool) (body : Place → List Outcome) : Nat → Place → List Outcome
  | 0, p => [stay p]
  | n + 1, p => prefer greedy (extend (body p) (atMost greedy body n)) [stay p]

/-- The ways to match `body` any further number of times, for the place with the given texts around
it and for all later places. Every further time has to consume something. -/
def further (greedy : Bool) (body : Place → List Outcome) (before : List Char) :
    (after : List Char) → List (List Outcome)
  | [] => [[stay ⟨before, []⟩]]
  | c :: cs =>
    let later := further greedy body (c :: before) cs
    let here : Place := ⟨before, c :: cs⟩
    let advances := (body here).filter (·.place.after.length ≤ cs.length)
    let goOn := extend advances fun p => later.getD (cs.length - p.after.length) []
    prefer greedy goOn [stay here] :: later

/-- The ways to match `body` at least once. If the first time consumes nothing, it is the last. -/
def atLeastOnce (greedy : Bool) (body : Place → List Outcome) (p : Place) : List Outcome :=
  let ways := further greedy body p.before p.after
  extend (body p) fun q =>
    if q.after.length = p.after.length then [stay q]
    else ways.getD (p.after.length - q.after.length) []

/-- The ways to match `body` repeatedly within the given bounds. -/
def repeated (least : Nat) (most : Option Nat) (greedy : Bool) (body : Place → List Outcome)
    (p : Place) : List Outcome :=
  match most, least with
  | some most, least => extend (exactly body least p) (atMost greedy body (most - least))
  | none, 0 => prefer greedy (atLeastOnce greedy body p) [stay p]
  | none, least + 1 => extend (exactly body least p) (atLeastOnce greedy body)

/-- All ways to match an expression at a place, the preferred one first. -/
def outcomes (r : Regex) (p : Place) : List Outcome :=
  match r with
  | empty => [stay p]
  | set s =>
    match p.after with
    | c :: cs => if s.has c then [stay ⟨c :: p.before, cs⟩] else []
    | [] => []
  | anchor a => if p.satisfies a then [stay p] else []
  | seq r s => extend (r.outcomes p) s.outcomes
  | alt r s => dropRepeats (r.outcomes p ++ s.outcomes p)
  | group index r =>
    (r.outcomes p).map fun o => { o with captures := (index, p.upTo o.place) :: o.captures }
  | repetition least most greedy r => repeated least most greedy r.outcomes p

/-- The groups of the leftmost match from a place on. -/
def searchFrom (r : Regex) (before : List Char) : (after : List Char) → Option Captures
  | [] => (r.outcomes ⟨before, []⟩).head?.map (·.captures)
  | c :: cs =>
    match r.outcomes ⟨before, c :: cs⟩ with
    | o :: _ => some o.captures
    | [] => searchFrom r (c :: before) cs

/-- The groups of the leftmost match in a text. -/
def search (r : Regex) (text : String) : Option Captures :=
  searchFrom r [] text.toList

end BusReference.Regex
