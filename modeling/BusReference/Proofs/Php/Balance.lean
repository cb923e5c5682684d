import BusReference.Php.Body

/-!
# Balanced tokens

Tokens are balanced if every bracket is closed by its partner.  Some readers
count one kind of brackets only, others count all kinds together; each of them
comes out of balanced tokens as it went in, at whatever depth it stands.  At
the top level of a list, this holds of an item as long as its commas stand in
brackets.
-/

namespace BusReference.Php

/-! ## Brackets -/

/-- An opening bracket and the one that closes it. -/
abbrev BracketPair := Token × Token

namespace BracketPair

def parentheses : BracketPair := (.punct '(', .punct ')')

def squares : BracketPair := (.punct '[', .punct ']')

/-- Groups of attributes are closed as lists are. -/
def attributes : BracketPair := (.attributeOpen, .punct ']')

def braces : BracketPair := (.punct '{', .punct '}')

/-- All brackets of the language. -/
def all : List BracketPair := [parentheses, squares, attributes, braces]

theorem mem_all_iff {pair : BracketPair} :
    pair ∈ all ↔
      pair = parentheses ∨ pair = squares ∨ pair = attributes ∨
        pair = braces := by
  simp [all]

end BracketPair

open BracketPair (parentheses squares attributes braces mem_all_iff)

/-- The token is no bracket of the given pairs. -/
def IsPlain (pairs : List BracketPair) (t : Token) : Prop :=
  ∀ pair ∈ pairs, t ≠ pair.1 ∧ t ≠ pair.2

instance (pairs : List BracketPair) (t : Token) :
    Decidable (IsPlain pairs t) :=
  inferInstanceAs (Decidable (∀ pair ∈ pairs, _))

/-- Words are neither brackets nor separators. -/
theorem isPlain_of_isWord {t : Token} (word : t.isWord = true) :
    IsPlain BracketPair.all t ∧ t ≠ .punct ',' := by
  have noMark : ∀ c, t ≠ .punct c := by
    rintro c rfl
    cases word
  have noOpening : t ≠ .attributeOpen := by
    rintro rfl
    cases word
  refine ⟨fun pair listed => ?_, noMark _⟩
  rcases mem_all_iff.mp listed with rfl | rfl | rfl | rfl
  · exact ⟨noMark _, noMark _⟩
  · exact ⟨noMark _, noMark _⟩
  · exact ⟨noOpening, noMark _⟩
  · exact ⟨noMark _, noMark _⟩

/-- Tokens in which the brackets of the given pairs are closed in order. -/
inductive Balanced (pairs : List BracketPair) : List Token → Prop
  | nil : Balanced pairs []
  | plain {t : Token} {ts : List Token}
      (noBracket : IsPlain pairs t)
      (later : Balanced pairs ts) :
      Balanced pairs (t :: ts)
  | group {pair : BracketPair} {inner ts : List Token}
      (listed : pair ∈ pairs)
      (inside : Balanced pairs inner)
      (later : Balanced pairs ts) :
      Balanced pairs (pair.1 :: (inner ++ pair.2 :: ts))

theorem Balanced.append
    {pairs : List BracketPair} {ts us : List Token}
    (first : Balanced pairs ts) (second : Balanced pairs us) :
    Balanced pairs (ts ++ us) := by
  induction first with
  | nil => exact second
  | plain noBracket later ih => exact .plain noBracket ih
  | @group pair inner ts listed inside later ihInside ihLater =>
      have joined : (pair.1 :: (inner ++ pair.2 :: ts)) ++ us =
          pair.1 :: (inner ++ pair.2 :: (ts ++ us)) := by
        simp
      rw [joined]
      exact .group listed inside ihLater

/-- Among balanced brackets those of some pairs are closed in order, if the
others have no part in them. -/
theorem Balanced.of_all
    {pairs : List BracketPair} (among : ∀ pair ∈ pairs, pair ∈ BracketPair.all)
    (apart : ∀ pair ∈ BracketPair.all,
      pair ∈ pairs ∨ IsPlain pairs pair.1 ∧ IsPlain pairs pair.2)
    {ts : List Token} (balanced : Balanced BracketPair.all ts) :
    Balanced pairs ts := by
  induction balanced with
  | nil => exact .nil
  | plain noBracket later ih =>
      exact .plain (fun pair listed => noBracket pair (among pair listed)) ih
  | @group pair inner ts listed inside later ihInside ihLater =>
      rcases apart pair listed with own | ⟨opens, closes⟩
      · exact .group own ihInside ihLater
      · exact .plain opens (ihInside.append (.plain closes ihLater))

theorem Balanced.parentheses_of_all
    {ts : List Token} (balanced : Balanced BracketPair.all ts) :
    Balanced [parentheses] ts :=
  balanced.of_all (by decide) (by decide)

/-! ## Readers of one kind of brackets -/

/-- Among the pairs, the opener and the closer belong to each other only. -/
def IsPair (pairs : List BracketPair) (opener closer : Char) : Prop :=
  (Token.punct opener, Token.punct closer) ∈ pairs ∧
    ∀ pair ∈ pairs,
      (pair.1 = .punct opener ↔ pair.2 = .punct closer) ∧
        pair.1 ≠ .punct closer ∧ pair.2 ≠ .punct opener

instance (pairs : List BracketPair) (opener closer : Char) :
    Decidable (IsPair pairs opener closer) :=
  inferInstanceAs (Decidable (_ ∧ ∀ pair ∈ pairs, _))

theorem IsPair.apart
    {pairs : List BracketPair} {opener closer : Char}
    (isPair : IsPair pairs opener closer) : closer ≠ opener := by
  rintro rfl
  exact (isPair.2 _ isPair.1).2.2 rfl

section Enclosed

variable {opener closer : Char} {t : Token} (depth : Nat) (ts : List Token)

theorem enclosed_opener :
    enclosed opener closer depth (.punct opener :: ts) =
      (enclosed opener closer (depth + 1) ts).map
        fun (inner, rest) => (.punct opener :: inner, rest) := by
  rw [enclosed.eq_def _ _ depth (_ :: ts)]
  dsimp only
  rw [if_pos rfl]

theorem enclosed_closer_zero (apart : closer ≠ opener) :
    enclosed opener closer 0 (.punct closer :: ts) = some ([], ts) := by
  rw [enclosed, if_neg (by simpa using apart), if_pos rfl]

theorem enclosed_closer_succ (apart : closer ≠ opener) :
    enclosed opener closer (depth + 1) (.punct closer :: ts) =
      (enclosed opener closer depth ts).map
        fun (inner, rest) => (.punct closer :: inner, rest) := by
  rw [enclosed, if_neg (by simpa using apart), if_pos rfl]

theorem enclosed_other
    (notOpener : t ≠ .punct opener) (notCloser : t ≠ .punct closer) :
    enclosed opener closer depth (t :: ts) =
      (enclosed opener closer depth ts).map
        fun (inner, rest) => (t :: inner, rest) := by
  rw [enclosed.eq_def _ _ depth (_ :: ts)]
  dsimp only
  rw [if_neg notOpener, if_neg notCloser]

end Enclosed

theorem enclosed_append
    {pairs : List BracketPair} {opener closer : Char} {ts : List Token}
    (isPair : IsPair pairs opener closer) (balanced : Balanced pairs ts)
    (depth : Nat) (rest : List Token) :
    enclosed opener closer depth (ts ++ rest) =
      (enclosed opener closer depth rest).map
        fun (inner, after) => (ts ++ inner, after) := by
  induction balanced generalizing depth rest with
  | nil => simp
  | @plain t ts noBracket later ih =>
      obtain ⟨notOpener, notCloser⟩ := noBracket _ isPair.1
      rw [List.cons_append, enclosed_other _ _ notOpener notCloser, ih]
      simp [Option.map_map, Function.comp_def]
  | @group pair inner ts listed inside later ihInside ihLater =>
      obtain ⟨opens, notCloser, notOpener⟩ := isPair.2 pair listed
      have regroup : pair.1 :: (inner ++ pair.2 :: ts) ++ rest =
          pair.1 :: (inner ++ (pair.2 :: (ts ++ rest))) := by
        simp
      rw [regroup]
      by_cases isOpener : pair.1 = .punct opener
      · -- the inner tokens stand one level deeper
        have isCloser := opens.mp isOpener
        rw [isOpener, enclosed_opener, ihInside, isCloser,
          enclosed_closer_succ _ _ isPair.apart, ihLater]
        simp [Option.map_map, Function.comp_def]
      · have notClosing : pair.2 ≠ .punct closer :=
          fun isCloser => isOpener (opens.mpr isCloser)
        rw [enclosed_other _ _ isOpener notCloser, ihInside,
          enclosed_other _ _ notOpener notClosing, ihLater]
        simp [Option.map_map, Function.comp_def]

/-- Balanced tokens are what stands inside of an open bracket. -/
theorem closeBracket_balanced
    {pairs : List BracketPair} {opener closer : Char} {ts : List Token}
    (isPair : IsPair pairs opener closer) (balanced : Balanced pairs ts)
    (rest : List Token) :
    closeBracket opener closer (ts ++ .punct closer :: rest) =
      .ok (ts, rest) := by
  rw [closeBracket, enclosed_append isPair balanced,
    enclosed_closer_zero _ isPair.apart]
  simp

/-! ## Readers of attributes -/

namespace Attribute

variable
    {scope : Scope} {depth parens : Nat} {expectsName : Bool}
    {t : Token} {ts : List Token}

/-- The brackets that count in a group of attributes. -/
def groupPairs : List BracketPair := [squares, attributes]

theorem skipGroup_balanced
    (balanced : Balanced groupPairs ts) (depth : Nat) (rest : List Token) :
    skipGroup depth (ts ++ rest) = skipGroup depth rest := by
  induction balanced generalizing depth rest with
  | nil => rfl
  | @plain t ts noBracket later ih =>
      rw [List.cons_append, ← ih depth rest]
      cases t with
      | attributeOpen => exact absurd noBracket (by decide)
      | punct c =>
          have notOpener : c ≠ '[' := by
            rintro rfl
            exact absurd noBracket (by decide)
          have notCloser : c ≠ ']' := by
            rintro rfl
            exact absurd noBracket (by decide)
          simp [skipGroup, notOpener, notCloser]
      | _ => rfl
  | group listed inside later ihInside ihLater =>
      rw [List.cons_append, List.append_assoc, List.cons_append]
      rcases List.mem_cons.mp listed with rfl | last
      · simp [squares, skipGroup, ihInside, ihLater]
      · obtain rfl := List.mem_singleton.mp last
        simp [attributes, skipGroup, ihInside, ihLater]

theorem skipGroup_append
    (balanced : Balanced BracketPair.all ts) (rest : List Token) :
    skipGroup depth (ts ++ rest) = skipGroup depth rest :=
  skipGroup_balanced (balanced.of_all (by decide) (by decide)) depth rest

theorem readGroup_plain
    (noBracket : IsPlain BracketPair.all t)
    (inArguments : depth ≠ 0 ∨ parens ≠ 0) :
    readGroup scope depth parens expectsName (t :: ts) =
      readGroup scope depth parens expectsName ts := by
  have notTop : ¬ (depth = 0 ∧ parens = 0) := by omega
  cases t with
  | attributeOpen => exact absurd noBracket (by decide)
  | punct c =>
      have apart : c ≠ '[' ∧ c ≠ ']' ∧ c ≠ '(' ∧ c ≠ ')' := by
        refine ⟨?_, ?_, ?_, ?_⟩
        all_goals
          rintro rfl
          exact absurd noBracket (by decide)
      simp [readGroup, apart, notTop]
  | name text => simp [readGroup, notTop]
  | _ => rfl

/-- The names in the arguments of an attribute do not count. -/
theorem readGroup_append
    (balanced : Balanced BracketPair.all ts)
    (inArguments : depth ≠ 0 ∨ parens ≠ 0) (rest : List Token) :
    readGroup scope depth parens expectsName (ts ++ rest) =
      readGroup scope depth parens expectsName rest := by
  induction balanced generalizing depth parens rest with
  | nil => rfl
  | plain noBracket later ih =>
      rw [List.cons_append, readGroup_plain noBracket inArguments,
        ih inArguments]
  | group listed inside later ihInside ihLater =>
      rw [List.cons_append, List.append_assoc, List.cons_append]
      have deeper : depth + 1 ≠ 0 ∨ parens ≠ 0 := by omega
      have further : depth ≠ 0 ∨ parens + 1 ≠ 0 := by omega
      rcases mem_all_iff.mp listed with rfl | rfl | rfl | rfl
      · simp [parentheses, readGroup, ihInside further, ihLater inArguments]
      · simp [squares, readGroup, ihInside deeper, ihLater inArguments]
      · simp [attributes, readGroup, ihInside deeper, ihLater inArguments]
      · simp [braces, readGroup, ihInside inArguments, ihLater inArguments]

end Attribute

/-! ## Items of a list -/

/-- Balanced tokens without a comma outside of their brackets. -/
inductive IsItem : List Token → Prop
  | nil : IsItem []
  | plain {t : Token} {ts : List Token}
      (noBracket : IsPlain BracketPair.all t) (noComma : t ≠ .punct ',')
      (later : IsItem ts) :
      IsItem (t :: ts)
  | group {pair : BracketPair} {inner ts : List Token}
      (listed : pair ∈ BracketPair.all)
      (inside : Balanced BracketPair.all inner)
      (later : IsItem ts) :
      IsItem (pair.1 :: (inner ++ pair.2 :: ts))

namespace IsItem

variable {t : Token} {ts us : List Token}

theorem balanced (item : IsItem ts) : Balanced BracketPair.all ts := by
  induction item with
  | nil => exact .nil
  | plain noBracket noComma later ih => exact .plain noBracket ih
  | group listed inside later ih => exact .group listed inside ih

theorem append (first : IsItem ts) (second : IsItem us) :
    IsItem (ts ++ us) := by
  induction first with
  | nil => exact second
  | plain noBracket noComma later ih => exact .plain noBracket noComma ih
  | @group pair inner ts listed inside later ih =>
      have joined : (pair.1 :: (inner ++ pair.2 :: ts)) ++ us =
          pair.1 :: (inner ++ pair.2 :: (ts ++ us)) := by
        simp
      rw [joined]
      exact .group listed inside ih

theorem flatten
    {items : List (List Token)} (each : ∀ item ∈ items, IsItem item) :
    IsItem items.flatten := by
  induction items with
  | nil => exact .nil
  | cons item items ih =>
      rw [List.flatten_cons]
      exact (each item List.mem_cons_self).append
        (ih fun other member => each other (List.mem_cons_of_mem _ member))

theorem of_plain
    (each : ∀ t ∈ ts, IsPlain BracketPair.all t ∧ t ≠ .punct ',') :
    IsItem ts := by
  induction ts with
  | nil => exact .nil
  | cons t ts ih =>
      obtain ⟨noBracket, noComma⟩ := each t List.mem_cons_self
      exact .plain noBracket noComma
        (ih fun other member => each other (List.mem_cons_of_mem _ member))

end IsItem

section Items

variable {depth : Nat} {t : Token} {ts : List Token}

theorem listItems_ne_nil (depth : Nat) (ts : List Token) :
    listItems depth ts ≠ [] := by
  cases ts with
  | nil => simp [listItems]
  | cons t ts =>
      rw [listItems]
      split
      · simp
      · split <;> simp

theorem listItems_cons (within : ¬ (t = .punct ',' ∧ depth = 0)) :
    listItems depth (t :: ts) =
      (listItems (nesting depth t) ts).modifyHead (t :: ·) := by
  rw [listItems, if_neg within]
  cases read : listItems (nesting depth t) ts with
  | nil => exact absurd read (listItems_ne_nil _ _)
  | cons first others => rfl

theorem nesting_plain (noBracket : IsPlain BracketPair.all t) :
    nesting depth t = depth := by
  cases t with
  | attributeOpen => exact absurd noBracket (by decide)
  | punct c =>
      have notOpener : ¬ (c = '(' ∨ c = '[' ∨ c = '{') := by
        rintro (rfl | rfl | rfl)
        all_goals exact absurd noBracket (by decide)
      have notCloser : ¬ (c = ')' ∨ c = ']' ∨ c = '}') := by
        rintro (rfl | rfl | rfl)
        all_goals exact absurd noBracket (by decide)
      rw [nesting, if_neg notOpener, if_neg notCloser]
  | _ => rfl

theorem listItems_group
    {pair : BracketPair} {inner : List Token}
    (listed : pair ∈ BracketPair.all)
    (inside : ∀ rest, listItems (depth + 1) (inner ++ rest) =
      (listItems (depth + 1) rest).modifyHead (inner ++ ·)) :
    listItems depth (pair.1 :: (inner ++ pair.2 :: ts)) =
      (listItems depth ts).modifyHead
        ((pair.1 :: (inner ++ [pair.2])) ++ ·) := by
  have opens : pair.1 ≠ .punct ',' ∧ nesting depth pair.1 = depth + 1 := by
    rcases mem_all_iff.mp listed with rfl | rfl | rfl | rfl
    all_goals exact ⟨by decide, rfl⟩
  have closes : nesting (depth + 1) pair.2 = depth := by
    rcases mem_all_iff.mp listed with rfl | rfl | rfl | rfl
    all_goals rfl
  rw [listItems_cons fun comma => opens.1 comma.1, opens.2, inside,
    listItems_cons fun comma => Nat.succ_ne_zero _ comma.2, closes,
    List.modifyHead_modifyHead, List.modifyHead_modifyHead]
  congr 1
  funext first
  simp

/-- Inside of a bracket, commas do not separate. -/
theorem listItems_balanced
    (balanced : Balanced BracketPair.all ts) (rest : List Token) :
    listItems (depth + 1) (ts ++ rest) =
      (listItems (depth + 1) rest).modifyHead (ts ++ ·) := by
  induction balanced generalizing depth rest with
  | nil => exact (congrFun List.modifyHead_id _).symm
  | plain noBracket later ih =>
      rw [List.cons_append,
        listItems_cons fun comma => Nat.succ_ne_zero _ comma.2,
        nesting_plain noBracket, ih, List.modifyHead_modifyHead]
      rfl
  | group listed inside later ihInside ihLater =>
      rw [List.cons_append, List.append_assoc, List.cons_append,
        listItems_group listed ihInside, ihLater,
        List.modifyHead_modifyHead]
      congr 1
      funext first
      simp

theorem listItems_item (item : IsItem ts) (rest : List Token) :
    listItems 0 (ts ++ rest) = (listItems 0 rest).modifyHead (ts ++ ·) := by
  induction item generalizing rest with
  | nil => exact (congrFun List.modifyHead_id _).symm
  | plain noBracket noComma later ih =>
      rw [List.cons_append, listItems_cons fun comma => noComma comma.1,
        nesting_plain noBracket, ih, List.modifyHead_modifyHead]
      rfl
  | group listed inside later ih =>
      rw [List.cons_append, List.append_assoc, List.cons_append,
        listItems_group listed (listItems_balanced inside), ih,
        List.modifyHead_modifyHead]
      congr 1
      funext first
      simp

end Items

/-- A token that may be missing. -/
def optionalToken (present : Bool) (t : Token) : List Token :=
  if present then [t] else []

theorem optionalToken_cases
    {P : List Token → Prop} {present : Bool} {t : Token}
    (missing : P []) (single : P [t]) :
    P (optionalToken present t) := by
  cases present with
  | false => exact missing
  | true => exact single

/-- Items with commas between them. -/
def commaList (items : List (List Token)) : List Token :=
  [Token.punct ','].intercalate items

@[simp]
theorem commaList_nil : commaList [] = [] := rfl

@[simp]
theorem commaList_singleton (item : List Token) :
    commaList [item] = item :=
  List.intercalate_singleton

theorem commaList_cons_cons
    (item other : List Token) (items : List (List Token)) :
    commaList (item :: other :: items) =
      item ++ .punct ',' :: commaList (other :: items) := by
  rw [commaList, List.intercalate_cons_cons, List.append_assoc]
  rfl

/--
A list is read as the items that it was made of.  Nothing may follow it, or a
comma.
-/
theorem listItems_commaList
    {items : List (List Token)} (nonempty : items ≠ [])
    (each : ∀ item ∈ items, IsItem item)
    {rest : List Token} {others : List (List Token)}
    (separated : listItems 0 rest = [] :: others) :
    listItems 0 (commaList items ++ rest) = items ++ others := by
  induction items with
  | nil => exact absurd rfl nonempty
  | cons item items ih =>
      have first := each item List.mem_cons_self
      cases items with
      | nil =>
          rw [commaList_singleton, listItems_item first, separated,
            List.modifyHead_cons, List.append_nil]
          rfl
      | cons other items =>
          have later := ih (List.cons_ne_nil _ _)
            fun item member => each item (List.mem_cons_of_mem _ member)
          rw [commaList_cons_cons, List.append_assoc, listItems_item first,
            List.cons_append, listItems, if_pos ⟨rfl, rfl⟩, later,
            List.modifyHead_cons, List.append_nil]
          rfl

end BusReference.Php
