import BusReference.Proofs.DocComment.Imports
import BusReference.Proofs.Regex.Capture

/-!
# The domains that the stock patterns find

A stock pattern looks for a namespace prefix with letters behind it and a
backslash behind those.  The letters are matched greedily and a backslash is no
letter, so at each place there is one way to match or none: the letters are the
longest run of them.  A prefix without such letters is passed over, and the
search goes on one character later, maybe inside of that prefix.
-/

namespace BusReference

namespace Regex

open DocComment (firstAt)
open Outcome (stay dropRepeats extend)

/-! ## Single ways to match -/

theorem dropRepeats_eq_self
    {os : List Outcome}
    (distinct : os.Pairwise fun o n =>
      n.place.after.length ≠ o.place.after.length) :
    dropRepeats os = os := by
  induction os with
  | nil => rfl
  | cons o os ih =>
      obtain ⟨apart, later⟩ := List.pairwise_cons.mp distinct
      rw [dropRepeats, ih later, List.filter_eq_self.mpr]
      intro n member
      exact bne_iff_ne.mpr (apart n member)

/-- What follows the way to match nothing is matched alone. -/
theorem extend_stay (p : Place) (next : Place → List Outcome) :
    extend [stay p] next = dropRepeats (next p) := by
  simp [extend, stay]

theorem extend_nil (next : Place → List Outcome) : extend [] next = [] := rfl

theorem outcomes_seq (r s : Regex) (p : Place) :
    (seq r s).outcomes p = extend (r.outcomes p) s.outcomes := rfl

theorem outcomes_group (index : Nat) (r : Regex) (p : Place) :
    (group index r).outcomes p = (r.outcomes p).map fun o =>
      { o with captures := (index, p.upTo o.place) :: o.captures } := rfl

theorem outcomes_set_cons
    (s : CharSet) (before : List Char) (c : Char) (cs : List Char) :
    (set s).outcomes ⟨before, c :: cs⟩ =
      if s.has c then [stay ⟨c :: before, cs⟩] else [] := rfl

theorem outcomes_set_nil (s : CharSet) (before : List Char) :
    (set s).outcomes ⟨before, []⟩ = [] := rfl

theorem captures_of_mem_outcomes_set
    {s : CharSet} {p : Place} {o : Outcome}
    (member : o ∈ (set s).outcomes p) : o.captures = [] := by
  obtain ⟨before, _ | ⟨c, cs⟩⟩ := p
  · cases member
  · rw [outcomes_set_cons] at member
    split at member
    · rw [List.mem_singleton.mp member]
      rfl
    · cases member

theorem has_single (c d : Char) : (CharSet.single c).has d = (d == c) := by
  rw [Bool.eq_iff_iff, beq_iff_eq]
  constructor
  · intro inside
    obtain ⟨least, greatest⟩ : c ≤ d ∧ d ≤ c := by
      simpa [CharSet.single, CharSet.has] using inside
    exact Char.le_antisymm greatest least
  · rintro rfl
    simp [CharSet.single, CharSet.has]

/-! ## Runs of characters in a set -/

section Runs

variable {s : CharSet}

/-- The places after the characters in the set that stand first, the farthest
place first. -/
def runEnds (s : CharSet) (before : List Char) : List Char → List Place
  | [] => [⟨before, []⟩]
  | c :: cs =>
      (if s.has c then runEnds s (c :: before) cs else []) ++
        [⟨before, c :: cs⟩]

theorem length_le_of_mem_runEnds
    {before after : List Char} {p : Place}
    (member : p ∈ runEnds s before after) :
    p.after.length ≤ after.length := by
  induction after generalizing before with
  | nil => rw [List.mem_singleton.mp member]
  | cons c cs ih =>
      rw [runEnds, List.mem_append, List.mem_singleton] at member
      rcases member with farther | rfl
      · split at farther
        · exact Nat.le_succ_of_le (ih farther)
        · cases farther
      · exact Nat.le_refl _

theorem pairwise_runEnds (before after : List Char) :
    (runEnds s before after).Pairwise fun p q =>
      q.after.length ≠ p.after.length := by
  induction after generalizing before with
  | nil => exact List.pairwise_singleton _ _
  | cons c cs ih =>
      rw [runEnds]
      split
      · rw [List.pairwise_append]
        refine ⟨ih (c :: before), List.pairwise_singleton _ _, ?_⟩
        intro p farther q here same
        rw [List.mem_singleton.mp here, List.length_cons] at same
        have := length_le_of_mem_runEnds farther
        omega
      · exact List.pairwise_singleton _ _

theorem dropRepeats_runEnds (before after : List Char) :
    dropRepeats ((runEnds s before after).map stay) =
      (runEnds s before after).map stay :=
  dropRepeats_eq_self (List.pairwise_map.mpr (pairwise_runEnds before after))

/-- A greedy repetition goes as far as it can and then gives way. -/
theorem further_set (before after : List Char) :
    (further true (set s).outcomes before after).getD 0 [] =
      (runEnds s before after).map stay := by
  induction after generalizing before with
  | nil => rfl
  | cons c cs ih =>
      rw [further, List.getD_cons_zero, outcomes_set_cons, runEnds]
      by_cases inside : s.has c = true
      · have advances : [stay ⟨c :: before, cs⟩].filter
            (fun o => decide (o.place.after.length ≤ cs.length)) =
              [stay ⟨c :: before, cs⟩] := by
          simp [stay]
        have whole := dropRepeats_runEnds (s := s) before (c :: cs)
        rw [runEnds, if_pos inside, List.map_append] at whole
        rw [if_pos inside, if_pos inside, advances, extend_stay, Nat.sub_self,
          ih, dropRepeats_runEnds, prefer, if_pos rfl, List.map_append]
        exact whole
      · rw [if_neg inside, if_neg inside]
        rfl

/-- The ways to match a run of at least one character. -/
theorem outcomes_run_cons (before : List Char) (c : Char) (cs : List Char) :
    (repetition 1 none true (set s)).outcomes ⟨before, c :: cs⟩ =
      if s.has c then (runEnds s (c :: before) cs).map stay else [] := by
  rw [outcomes, repeated, exactly, extend_stay, atLeastOnce, outcomes_set_cons]
  by_cases inside : s.has c = true
  · have shorter : cs.length ≠ (c :: cs).length := by simp
    have one : (c :: cs).length - cs.length = 1 := by simp
    have next : (further true (set s).outcomes before (c :: cs)).getD 1 [] =
        (further true (set s).outcomes (c :: before) cs).getD 0 [] := by
      rw [further, List.getD_cons_succ]
    rw [if_pos inside, if_pos inside, extend_stay, if_neg shorter, one, next,
      further_set, dropRepeats_runEnds, dropRepeats_runEnds]
  · rw [if_neg inside, if_neg inside]
    rfl

/-- If the set has nothing with which the text may go on, then it goes on only
after the whole run. -/
theorem flatMap_runEnds
    {next : Place → List Outcome}
    (stops : ∀ before c cs, s.has c = true → next ⟨before, c :: cs⟩ = [])
    (before after : List Char) :
    (runEnds s before after).flatMap next =
      next ⟨(after.takeWhile s.has).reverse ++ before,
        after.dropWhile s.has⟩ := by
  induction after generalizing before with
  | nil => simp [runEnds]
  | cons c cs ih =>
      rw [runEnds, List.flatMap_append, List.flatMap_singleton]
      by_cases inside : s.has c = true
      · rw [if_pos inside, ih, stops before c cs inside, List.append_nil,
          List.takeWhile_cons_of_pos inside, List.dropWhile_cons_of_pos inside]
        simp
      · rw [if_neg inside, List.takeWhile_cons_of_neg inside,
          List.dropWhile_cons_of_neg inside]
        rfl

end Runs

/-! ## Expressions that capture one text -/

/-- At every place the expression matches in one way at most, and captures what
the function says. -/
def CapturesAt (r : Regex) (read : List Char → Option (List Char)) : Prop :=
  ∀ before after, (r.outcomes ⟨before, after⟩).map (·.captures) =
    ((read after).map fun captured => [(1, captured)]).toList

theorem CapturesAt.dropRepeats_outcomes
    {r : Regex} {read : List Char → Option (List Char)}
    (captures : r.CapturesAt read) (p : Place) :
    dropRepeats (r.outcomes p) = r.outcomes p := by
  have length := congrArg List.length (captures p.before p.after)
  rw [List.length_map] at length
  have single : (r.outcomes p).length ≤ 1 := by
    rw [length]
    cases read p.after <;> simp
  match ways : r.outcomes p with
  | [] => rfl
  | [o] => rfl
  | o :: n :: os =>
      rw [ways] at single
      simp at single

/-- The letters at the start of a text, if there are some and a backslash stands
behind them. -/
def segment? (cs : List Char) : Option (List Char) :=
  if cs.takeWhile Char.isAlpha ≠ [] ∧
      (cs.dropWhile Char.isAlpha).head? = some '\\' then
    some (cs.takeWhile Char.isAlpha)
  else none

/-- What is read behind a given start of the text. -/
def behind (start : List Char) (read : List Char → Option (List Char))
    (cs : List Char) : Option (List Char) :=
  if start.isPrefixOf cs then read (cs.drop start.length) else none

/-- A group of letters, of which the set is given, and a backslash. -/
def lettersThenBackslash (letters : CharSet) : Regex :=
  .seq (.group 1 (.repetition 1 none true (.set letters)))
    (.set (.single '\\'))

/-- The text from a character to the end of the run behind it. -/
theorem upTo_run
    (goesOn : Char → Bool) (before below : List Char) (c : Char)
    (cs : List Char) :
    Place.upTo ⟨before, c :: cs⟩ ⟨below, cs.dropWhile goesOn⟩ =
      c :: cs.takeWhile goesOn := by
  have split := List.takeWhile_append_dropWhile (p := goesOn) (l := cs)
  have length := congrArg List.length split
  have first :=
    @List.take_left _ (cs.takeWhile goesOn) (cs.dropWhile goesOn)
  rw [split] at first
  rw [List.length_append] at length
  have taken : (c :: cs).length - (cs.dropWhile goesOn).length =
      (cs.takeWhile goesOn).length + 1 := by
    simp only [List.length_cons]
    omega
  rw [Place.upTo, taken, List.take_succ_cons, first]

/-- After a letter a backslash is matched behind all the letters, or not at
all. -/
theorem outcomes_lettersThenBackslash
    {letters : CharSet} (alpha : ∀ c, letters.has c = c.isAlpha)
    {c : Char} (letter : c.isAlpha = true) (before cs : List Char) :
    (lettersThenBackslash letters).outcomes ⟨before, c :: cs⟩ =
      ((set (.single '\\')).outcomes
        ⟨(cs.takeWhile Char.isAlpha).reverse ++ (c :: before),
          cs.dropWhile Char.isAlpha⟩).map fun o =>
            { o with captures := [(1, c :: cs.takeWhile Char.isAlpha)] } := by
  have sameSet : letters.has = Char.isAlpha := funext alpha
  let start : Place := ⟨before, c :: cs⟩
  let next : Place → List Outcome := fun p =>
    ((set (.single '\\')).outcomes p).map fun o =>
      { o with captures := o.captures ++ [(1, start.upTo p)] }
  have stops : ∀ before d ds, letters.has d = true →
      next ⟨before, d :: ds⟩ = [] := by
    intro before d ds inside
    have other : (CharSet.single '\\').has d = false := by
      rw [has_single, beq_eq_false_iff_ne]
      rintro rfl
      rw [alpha] at inside
      exact absurd inside (by decide)
    simp only [next, outcomes_set_cons, other]
    rfl
  have farthest := flatMap_runEnds stops (c :: before) cs
  rw [sameSet] at farthest
  have single : ∀ p : Place, dropRepeats (next p) = next p := by
    intro p
    simp only [next, outcomes]
    split
    · split <;> rfl
    · rfl
  rw [lettersThenBackslash, outcomes_seq, outcomes_group, outcomes_run_cons,
    alpha, if_pos letter, extend, List.map_map, List.flatMap_map]
  change dropRepeats ((runEnds letters (c :: before) cs).flatMap next) = _
  rw [farthest, single]
  refine List.map_congr_left fun o member => ?_
  rw [captures_of_mem_outcomes_set member, upTo_run, List.nil_append]

theorem capturesAt_lettersThenBackslash
    {letters : CharSet} (alpha : ∀ c, letters.has c = c.isAlpha) :
    (lettersThenBackslash letters).CapturesAt segment? := by
  intro before after
  cases after with
  | nil => rfl
  | cons c cs =>
      rw [segment?]
      by_cases letter : c.isAlpha = true
      · rw [outcomes_lettersThenBackslash alpha letter,
          List.takeWhile_cons_of_pos letter,
          List.dropWhile_cons_of_pos letter]
        cases cs.dropWhile Char.isAlpha with
        | nil => simp [outcomes_set_nil]
        | cons d ds =>
            rw [outcomes_set_cons, has_single]
            by_cases backslash : d = '\\' <;> simp [backslash]
      · rw [List.takeWhile_cons_of_neg letter, lettersThenBackslash,
          outcomes_seq, outcomes_group, outcomes_run_cons, alpha,
          if_neg letter]
        rfl

/-- An expression behind a character captures what stands behind that. -/
theorem CapturesAt.seq_single
    {r : Regex} {read : List Char → Option (List Char)}
    (captures : r.CapturesAt read) (c : Char) :
    (Regex.seq (.set (.single c)) r).CapturesAt (behind [c] read) := by
  intro before after
  rw [outcomes_seq, behind]
  cases after with
  | nil => rfl
  | cons d ds =>
      rw [outcomes_set_cons, has_single]
      by_cases same : d = c
      · subst same
        rw [if_pos (beq_self_eq_true d), extend_stay,
          captures.dropRepeats_outcomes, captures]
        simp
      · rw [if_neg (by simpa using same), if_neg (by simpa using Ne.symm same)]
        rfl

theorem behind_cons
    (c : Char) (start : List Char) (read : List Char → Option (List Char)) :
    behind (c :: start) read = behind [c] (behind start read) := by
  funext cs
  cases cs with
  | nil => rfl
  | cons d ds =>
      by_cases same : c = d
      · simp [behind, same]
      · simp [behind, same]

/-- The characters one after another, and then an expression. -/
def chain (start : List Char) (r : Regex) : Regex :=
  start.foldr (fun c rest => .seq (.set (.single c)) rest) r

theorem CapturesAt.chain
    {r : Regex} {read : List Char → Option (List Char)}
    (captures : r.CapturesAt read) (start : List Char) :
    (Regex.chain start r).CapturesAt (behind start read) := by
  induction start with
  | nil => exact captures
  | cons c start ih =>
      rw [behind_cons]
      exact ih.seq_single c

/-- A literal matches where its characters stand, and captures nothing. -/
theorem outcomes_literal (start : List Char) (p : Place) :
    (literal start).outcomes p =
      if start.isPrefixOf p.after then
        [stay ⟨start.reverse ++ p.before, p.after.drop start.length⟩]
      else [] := by
  fun_induction literal start generalizing p with
  | case1 => simp [outcomes]
  | case2 c =>
      obtain ⟨before, _ | ⟨d, ds⟩⟩ := p
      · rfl
      · rw [outcomes_set_cons, has_single]
        by_cases same : d = c
        · simp [same]
        · simp [same, Ne.symm same]
  | case3 c start filled ih =>
      obtain ⟨before, _ | ⟨d, ds⟩⟩ := p
      · rfl
      · rw [outcomes_seq, outcomes_set_cons, has_single]
        by_cases same : d = c
        · rw [if_pos (by simpa using same), extend_stay, ih]
          by_cases rest : start.isPrefixOf ds = true
          · simp [same, rest, dropRepeats]
          · simp [same, rest, dropRepeats]
        · simp [same, Ne.symm same, extend_nil]

theorem CapturesAt.seq_literal
    {r : Regex} {read : List Char → Option (List Char)}
    (captures : r.CapturesAt read) (start : List Char) :
    (Regex.seq (literal start) r).CapturesAt (behind start read) := by
  intro before after
  rw [outcomes_seq, outcomes_literal, behind]
  by_cases stands : start.isPrefixOf after = true
  · rw [if_pos stands, if_pos stands, extend_stay,
      captures.dropRepeats_outcomes, captures]
  · rw [if_neg stands, if_neg stands]
    rfl

/-- The search takes what is captured at the first place that has something. -/
theorem CapturesAt.search_eq
    {r : Regex} {read : List Char → Option (List Char)}
    (captures : r.CapturesAt read) (text : String) :
    r.search text =
      (firstAt read text.toList).map fun captured => [(1, captured)] := by
  have first : ∀ before after, (r.outcomes ⟨before, after⟩).head?.map
      (·.captures) = (read after).map fun captured => [(1, captured)] := by
    intro before after
    rw [← List.head?_map, captures]
    cases read after <;> rfl
  rw [search]
  generalize ([] : List Char) = before
  induction text.toList generalizing before with
  | nil =>
      rw [searchFrom, first, firstAt]
  | cons c cs ih =>
      have here := first before (c :: cs)
      rw [searchFrom, firstAt]
      cases ways : r.outcomes ⟨before, c :: cs⟩ with
      | nil =>
          rw [ways] at here
          cases found : read (c :: cs) with
          | none => exact ih (c :: before)
          | some captured =>
              rw [found] at here
              cases here
      | cons o others =>
          rw [ways] at here
          cases found : read (c :: cs) with
          | none =>
              rw [found] at here
              cases here
          | some captured =>
              rw [found] at here
              exact here

end Regex

namespace DomainPattern

open Regex (CapturesAt behind segment? lettersThenBackslash)

theorem has_asciiLetter (c : Char) : asciiLetter.has c = c.isAlpha := by
  have alpha : c.isAlpha = (decide ('A' ≤ c ∧ c ≤ 'Z') ||
      decide ('a' ≤ c) && decide (c ≤ 'z')) := rfl
  rw [alpha, Bool.eq_iff_iff]
  simp [asciiLetter, CharSet.has, or_comm]

/-- The domain is what is read at the first place that has something. -/
theorem domain_of_capturesAt
    {r : Regex} {read : List Char → Option (List Char)}
    (captures : r.CapturesAt read) (className : String) :
    domain ⟨r⟩ className =
      String.ofList ((DocComment.firstAt read className.toList).getD []) := by
  rw [domain, captures.search_eq]
  cases DocComment.firstAt read className.toList <;> rfl

theorem capturesAt_below (namespacePrefix : String) :
    (below namespacePrefix).regex.CapturesAt
      (behind namespacePrefix.toList segment?) :=
  (Regex.capturesAt_lettersThenBackslash has_asciiLetter).seq_literal _

/-! ## Domains in class names -/

section Names

variable {namespacePrefix text : List Char} {place : Nat}

/-- All letters behind a prefix that stands at a place of the text. -/
def lettersBehind (namespacePrefix text : List Char) (place : Nat) :
    List Char :=
  (text.drop (place + namespacePrefix.length)).takeWhile Char.isAlpha

/-- At the place the prefix stands, and behind it letters with a backslash right
behind the last of them. -/
def NamesDomainAt (namespacePrefix text : List Char) (place : Nat) : Prop :=
  namespacePrefix <+: text.drop place ∧
    lettersBehind namespacePrefix text place ≠ [] ∧
    lettersBehind namespacePrefix text place ++ ['\\'] <+:
      text.drop (place + namespacePrefix.length)

instance (namespacePrefix text : List Char) (place : Nat) :
    Decidable (NamesDomainAt namespacePrefix text place) :=
  inferInstanceAs (Decidable (_ ∧ _ ∧ _))

theorem takeWhile_append_singleton_isPrefix_iff
    {cs : List Char} {c : Char} :
    cs.takeWhile Char.isAlpha ++ [c] <+: cs ↔
      (cs.dropWhile Char.isAlpha).head? = some c := by
  have split := List.takeWhile_append_dropWhile (p := Char.isAlpha) (l := cs)
  rw [List.head?_eq_some_iff]
  constructor
  · rintro ⟨rest, text⟩
    rw [List.append_assoc] at text
    exact ⟨rest, List.append_cancel_left (split.trans text.symm)⟩
  · rintro ⟨rest, behind⟩
    rw [behind] at split
    exact ⟨rest, by rw [List.append_assoc]; exact split⟩

theorem behind_segment?_of_names
    (names : NamesDomainAt namespacePrefix text place) :
    behind namespacePrefix segment? (text.drop place) =
      some (lettersBehind namespacePrefix text place) := by
  obtain ⟨stands, some, closed⟩ := names
  rw [lettersBehind] at some closed ⊢
  rw [takeWhile_append_singleton_isPrefix_iff] at closed
  rw [behind, if_pos (List.isPrefixOf_iff_prefix.mpr stands), List.drop_drop,
    segment?, if_pos ⟨some, closed⟩]

theorem behind_segment?_of_not_names
    (unnamed : ¬ NamesDomainAt namespacePrefix text place) :
    behind namespacePrefix segment? (text.drop place) = none := by
  rw [behind]
  split
  · rename_i stands
    rw [List.drop_drop, segment?, if_neg]
    rintro ⟨some, closed⟩
    rw [← takeWhile_append_singleton_isPrefix_iff] at closed
    exact unnamed ⟨List.isPrefixOf_iff_prefix.mp stands, some, closed⟩
  · rfl

end Names

/--
What a stock pattern with the given text finds: the letters behind the leftmost
prefix that has letters and a backslash behind it, and nothing if there is no
such prefix.  An expression that is read from the text finds the same.
-/
structure FindsBelow
    (pattern : DomainPattern) (text namespacePrefix : String) : Prop where
  leftmost : ∀ (className : String) (place : Nat),
    NamesDomainAt namespacePrefix.toList className.toList place →
    (∀ earlier < place,
      ¬ NamesDomainAt namespacePrefix.toList className.toList earlier) →
    pattern.domain className = String.ofList
      (lettersBehind namespacePrefix.toList className.toList place)
  nothing : ∀ className : String,
    (∀ place, ¬ NamesDomainAt namespacePrefix.toList className.toList place) →
    pattern.domain className = ""
  ofText : ∃ read, DomainPattern.ofText text = .ok read ∧
    ∀ className, read.domain className = pattern.domain className

/-- The class of letters as it is read. -/
def readLetters : CharSet :=
  .union (.union .empty (.range 'a' 'z')) (.range 'A' 'Z')

theorem has_readLetters (c : Char) : readLetters.has c = c.isAlpha := by
  rw [← has_asciiLetter]
  simp [readLetters, asciiLetter, CharSet.has]

theorem findsBelow_below
    {text namespacePrefix : String}
    (parsed : Regex.parse? text = some
      (.chain namespacePrefix.toList (lettersThenBackslash readLetters)))
    (grouped : (Regex.chain namespacePrefix.toList
      (lettersThenBackslash readLetters)).groupCount ≠ 0) :
    (below namespacePrefix).FindsBelow text namespacePrefix where
  leftmost := by
    intro className place names first
    have found : DocComment.firstAt (behind namespacePrefix.toList segment?)
        className.toList =
          some (lettersBehind namespacePrefix.toList className.toList place) :=
      DocComment.firstAt_eq_some_iff.mpr
        ⟨place, behind_segment?_of_names names, fun earlier before =>
          behind_segment?_of_not_names (first earlier before)⟩
    exact (domain_of_capturesAt (capturesAt_below namespacePrefix) className).trans
      (by rw [found]; rfl)
  nothing := by
    intro className unnamed
    have missing : DocComment.firstAt (behind namespacePrefix.toList segment?)
        className.toList = none :=
      DocComment.firstAt_eq_none_iff.mpr fun place =>
        behind_segment?_of_not_names (unnamed place)
    exact (domain_of_capturesAt (capturesAt_below namespacePrefix) className).trans
      (by rw [missing]; rfl)
  ofText := by
    refine ⟨_, by rw [DomainPattern.ofText, parsed]; exact if_neg grouped, ?_⟩
    intro className
    have read := (Regex.capturesAt_lettersThenBackslash has_readLetters).chain
      namespacePrefix.toList
    rw [domain_of_capturesAt read]
    exact (domain_of_capturesAt (capturesAt_below namespacePrefix) className).symm

/--
Both stock patterns find the longest run of letters behind the leftmost prefix
where that run is not empty and has a backslash right behind it.
-/
theorem findsBelow_stock :
    core.FindsBelow
        "PrestaShop\\\\PrestaShop\\\\Core\\\\Domain\\\\([a-zA-Z]+)\\\\"
        "PrestaShop\\PrestaShop\\Core\\Domain\\" ∧
      testFixtures.FindsBelow
        "Tests\\\\Resources\\\\Domain\\\\([a-zA-Z]+)\\\\"
        "Tests\\Resources\\Domain\\" :=
  ⟨findsBelow_below (by decide +kernel) (by decide),
    findsBelow_below (by decide +kernel) (by decide)⟩

/-- A start of the prefix is passed over, and so is a prefix with a digit
behind it; letters that end the name are no domain. -/
theorem findsBelow_stock_passing :
    core.domain "PrestaShop\\PrestaShop\\PrestaShop\\Core\\Domain\\Tax\\Add" =
        "Tax" ∧
      testFixtures.domain
          "Tests\\Resources\\Domain\\9Tests\\Resources\\Domain\\Tax\\Add" =
        "Tax" ∧
      testFixtures.domain "Tests\\Resources\\Domain\\Tax" = "" := by
  obtain ⟨ofCore, ofTest⟩ := findsBelow_stock
  have unnamed : ∀ place < 26,
      ¬ NamesDomainAt "Tests\\Resources\\Domain\\".toList
        "Tests\\Resources\\Domain\\Tax".toList place := by
    decide +kernel
  refine ⟨?_, ?_, ofTest.nothing _ fun place names => ?_⟩
  · rw [ofCore.leftmost _ 11 (by decide +kernel) (by decide +kernel)]
    decide +kernel
  · rw [ofTest.leftmost _ 24 (by decide +kernel) (by decide +kernel)]
    decide +kernel
  · rcases Nat.lt_or_ge place 26 with inside | beyond
    · exact unnamed place inside names
    · have short := names.1.length_le
      rw [List.drop_eq_nil_of_le (Nat.le_trans (by decide) beyond)] at short
      exact absurd short (by decide)

end DomainPattern

end BusReference
