import BusReference.Domain

/-!
# What groups capture

A regular expression goes through a text from left to right.  Every way to
match ends at a later place of the text, and what a group captures on this way
is a stretch of the text after the place where the match begins.
-/

namespace BusReference

namespace Regex

open Outcome (stay dropRepeats extend)

/--
The way to match ends in the given text, and its groups capture stretches of
it.
-/
def Outcome.Within (text : List Char) (o : Outcome) : Prop :=
  o.place.after <:+ text ∧ ∀ capture ∈ o.captures, capture.2 <:+: text

/-- All ways to match at a place stay within the text after it. -/
def StaysWithin (body : Place → List Outcome) : Prop :=
  ∀ p, ∀ o ∈ body p, o.Within p.after

/-! ## Combinations of ways to match -/

section Combine

variable {text : List Char} {os : List Outcome}

theorem within_stay (p : Place) : (stay p).Within p.after := by
  constructor
  · exact List.suffix_refl _
  · intro capture member
    cases member

theorem mem_of_mem_dropRepeats
    {o : Outcome} (member : o ∈ dropRepeats os) : o ∈ os := by
  induction os with
  | nil => exact member
  | cons first others ih =>
      rw [dropRepeats, List.mem_cons] at member
      rcases member with rfl | later
      · exact List.mem_cons_self
      · exact List.mem_cons_of_mem _ (ih (List.mem_filter.mp later).1)

theorem within_extend
    {next : Place → List Outcome}
    (first : ∀ o ∈ os, o.Within text)
    (second : ∀ o ∈ os, ∀ n ∈ next o.place, n.Within o.place.after) :
    ∀ o ∈ extend os next, o.Within text := by
  intro o member
  obtain ⟨start, inside, continued⟩ :=
    List.mem_flatMap.mp (mem_of_mem_dropRepeats member)
  obtain ⟨later, inNext, rfl⟩ := List.mem_map.mp continued
  obtain ⟨suffix, captured⟩ := first start inside
  obtain ⟨laterSuffix, laterCaptured⟩ := second start inside later inNext
  constructor
  · exact laterSuffix.trans suffix
  · intro capture captures
    rcases List.mem_append.mp captures with new | old
    · exact (laterCaptured capture new).trans suffix.isInfix
    · exact captured capture old

theorem within_prefer
    {greedy : Bool} {goOn stop : List Outcome}
    (goesOn : ∀ o ∈ goOn, o.Within text)
    (stops : ∀ o ∈ stop, o.Within text) :
    ∀ o ∈ prefer greedy goOn stop, o.Within text := by
  intro o member
  have either : o ∈ goOn ∨ o ∈ stop := by
    have inside := mem_of_mem_dropRepeats member
    cases greedy with
    | true => exact List.mem_append.mp inside
    | false => exact (List.mem_append.mp inside).symm
  rcases either with inside | inside
  · exact goesOn o inside
  · exact stops o inside

end Combine

/-! ## Repetitions -/

section Repeat

variable {body : Place → List Outcome}

theorem staysWithin_exactly
    (sound : StaysWithin body) (n : Nat) :
    StaysWithin (exactly body n) := by
  induction n with
  | zero =>
      intro p o member
      rw [List.mem_singleton.mp member]
      exact within_stay p
  | succ n ih =>
      intro p
      exact within_extend (sound p) fun o _ => ih o.place

theorem staysWithin_atMost
    (sound : StaysWithin body) (greedy : Bool) (n : Nat) :
    StaysWithin (atMost greedy body n) := by
  induction n with
  | zero =>
      intro p o member
      rw [List.mem_singleton.mp member]
      exact within_stay p
  | succ n ih =>
      intro p
      refine within_prefer ?_ ?_
      · exact within_extend (sound p) fun o _ => ih o.place
      · intro o member
        rw [List.mem_singleton.mp member]
        exact within_stay p

/-- The entry of each later place stays within the text from there on. -/
theorem within_further
    (sound : StaysWithin body) (greedy : Bool) (before after : List Char)
    (skip : Nat) :
    ∀ o ∈ (further greedy body before after).getD skip [],
      o.Within (after.drop skip) := by
  induction after generalizing before skip with
  | nil =>
      intro o member
      cases skip with
      | zero =>
          rw [List.mem_singleton.mp member]
          exact within_stay ⟨before, []⟩
      | succ skip => simp [further] at member
  | cons c cs ih =>
      cases skip with
      | succ skip =>
          intro o member
          refine ih (c :: before) skip o ?_
          simpa [further] using member
      | zero =>
          rw [further]
          refine within_prefer ?_ ?_
          · refine within_extend ?_ ?_
            · intro o member
              exact sound ⟨before, c :: cs⟩ o (List.mem_filter.mp member).1
            · intro o member n inLater
              -- the way goes on in the text where this time has ended
              obtain ⟨inside, advanced⟩ := List.mem_filter.mp member
              have shorter : o.place.after.length ≤ cs.length := by
                simpa using advanced
              have suffix : o.place.after <:+ cs := by
                have reached := (sound ⟨before, c :: cs⟩ o inside).1
                rcases List.suffix_cons_iff.mp reached with same | later
                · rw [same, List.length_cons] at shorter
                  omega
                · exact later
              rw [List.suffix_iff_eq_drop.mp suffix]
              exact ih (c :: before) _ n inLater
          · intro o member
            rw [List.mem_singleton.mp member]
            exact within_stay ⟨before, c :: cs⟩

theorem staysWithin_atLeastOnce
    (sound : StaysWithin body) (greedy : Bool) :
    StaysWithin (atLeastOnce greedy body) := by
  intro p
  rw [atLeastOnce]
  refine within_extend (sound p) ?_
  intro o member n later
  by_cases empty : o.place.after.length = p.after.length
  · rw [if_pos empty, List.mem_singleton] at later
    rw [later]
    exact within_stay o.place
  · rw [if_neg empty] at later
    have found := within_further sound greedy p.before p.after _ n later
    rw [← List.suffix_iff_eq_drop.mp (sound p o member).1] at found
    exact found

theorem staysWithin_repeated
    (sound : StaysWithin body) (least : Nat) (most : Option Nat)
    (greedy : Bool) :
    StaysWithin (repeated least most greedy body) := by
  intro p
  unfold repeated
  split
  · exact within_extend (staysWithin_exactly sound _ p)
      fun o _ => staysWithin_atMost sound greedy _ o.place
  · refine within_prefer (staysWithin_atLeastOnce sound greedy p) ?_
    intro o member
    rw [List.mem_singleton.mp member]
    exact within_stay p
  · exact within_extend (staysWithin_exactly sound _ p)
      fun o _ => staysWithin_atLeastOnce sound greedy o.place

end Repeat

/-! ## Expressions -/

theorem staysWithin_outcomes (r : Regex) : StaysWithin r.outcomes := by
  induction r with
  | empty =>
      intro p o member
      rw [outcomes, List.mem_singleton] at member
      rw [member]
      exact within_stay p
  | set s =>
      intro p o member
      rw [outcomes] at member
      split at member
      · rename_i c cs text
        split at member
        · rw [List.mem_singleton.mp member, text]
          constructor
          · exact List.suffix_cons c cs
          · intro capture inside
            cases inside
        · cases member
      · cases member
  | anchor a =>
      intro p o member
      rw [outcomes] at member
      split at member
      · rw [List.mem_singleton.mp member]
        exact within_stay p
      · cases member
  | seq r s first second =>
      intro p
      rw [outcomes]
      exact within_extend (first p) fun o _ => second o.place
  | alt r s first second =>
      intro p o member
      rw [outcomes] at member
      rcases List.mem_append.mp (mem_of_mem_dropRepeats member) with
        inside | inside
      · exact first p o inside
      · exact second p o inside
  | group index r ih =>
      intro p o member
      rw [outcomes] at member
      obtain ⟨inner, inside, rfl⟩ := List.mem_map.mp member
      obtain ⟨suffix, captured⟩ := ih p inner inside
      refine ⟨suffix, ?_⟩
      intro capture captures
      rcases List.mem_cons.mp captures with rfl | older
      · exact (List.take_prefix _ _).isInfix
      · exact captured capture older
  | repetition least most greedy r ih =>
      intro p
      rw [outcomes]
      exact staysWithin_repeated ih least most greedy p

theorem captured_of_searchFrom
    (r : Regex) {before after : List Char} {captures : Captures}
    (found : r.searchFrom before after = some captures) :
    ∀ capture ∈ captures, capture.2 <:+: after := by
  induction after generalizing before with
  | nil =>
      rw [searchFrom, Option.map_eq_some_iff] at found
      obtain ⟨o, first, rfl⟩ := found
      exact (staysWithin_outcomes r ⟨before, []⟩ o
        (List.mem_of_head? first)).2
  | cons c cs ih =>
      rw [searchFrom] at found
      split at found
      · rename_i o others ways
        cases found
        refine (staysWithin_outcomes r ⟨before, c :: cs⟩ o ?_).2
        rw [ways]
        exact List.mem_cons_self
      · intro capture member
        exact (ih found capture member).trans (List.suffix_cons c cs).isInfix

/-- What a search captures is a stretch of the text. -/
theorem captured_of_search
    (r : Regex) {text : String} {captures : Captures}
    (found : r.search text = some captures) :
    ∀ capture ∈ captures, capture.2 <:+: text.toList :=
  captured_of_searchFrom r found

end Regex

/-- The domain of a class is a stretch of its name. -/
theorem DomainPattern.domain_isInfix
    (pattern : DomainPattern) (className : String) :
    (pattern.domain className).toList <:+: className.toList := by
  rw [domain]
  split
  · exact List.nil_infix
  · rename_i captures found
    rw [String.toList_ofList]
    rcases group : captures.lookup 1 with _ | captured
    · exact List.nil_infix
    · obtain ⟨earlier, later, listed, -⟩ := List.lookup_eq_some_iff.mp group
      have member : (1, captured) ∈ captures := by
        rw [listed]
        exact List.mem_append_right _ List.mem_cons_self
      exact Regex.captured_of_search pattern.regex found _ member

end BusReference
