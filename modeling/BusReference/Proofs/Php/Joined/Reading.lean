import BusReference.Proofs.Php.Lexeme.Legible
import BusReference.Proofs.Php.Signature.PlainTokens

/-!
# Reading joined tokens

The text of an expression is that of its tokens, with blanks only between two
words.  It is read as these tokens exactly if each of them is read before the
text of those after it: no other first token leaves enough characters for the
rest.
-/

namespace BusReference.Php

open BusReference.Text.Blank (isBlank)
open Lexeme (tokens? tokens?_of_measure tokens?_of_measure_error)
open Lexeme.Reading

namespace Token

/-- The first character of the token passes the test. -/
def StartsWith (p : Char → Bool) (t : Token) : Prop :=
  t.spelling.toList.head?.any p = true

/-- The characters of joined tokens. -/
def joined (afterWord : Bool) (ts : List Token) : List Char :=
  (joinAfter afterWord ts).toList

section Spellings

variable {t : Token} {ts : List Token}

theorem joined_nil (afterWord : Bool) : joined afterWord [] = [] := rfl

theorem joined_cons
    (noDoc : ∀ text, t ≠ .docComment text) (afterWord : Bool) (ts : List Token) :
    joined afterWord (t :: ts) =
      (if afterWord && t.isWord then [' '] else []) ++
        (t.spelling.toList ++ joined t.isWord ts) := by
  have step : joinAfter afterWord (t :: ts) =
      (if afterWord && t.isWord then " " else "") ++ t.spelling ++
        joinAfter t.isWord ts := by
    cases t with
    | docComment text => exact absurd rfl (noDoc text)
    | _ => rfl
  rw [joined, step, String.toList_append, String.toList_append, List.append_assoc]
  split <;> rfl

theorem joined_false_cons
    (noDoc : ∀ text, t ≠ .docComment text) (ts : List Token) :
    joined false (t :: ts) = t.spelling.toList ++ joined t.isWord ts := by
  rw [joined_cons noDoc]
  rfl

theorem joined_punct (c : Char) (ts : List Token) :
    joined false (.punct c :: ts) = c :: joined false ts := by
  rw [joined_false_cons (by simp), toList_spelling_punct]
  rfl

theorem head?_joined_false
    (proper : t.IsProper) (ts : List Token) :
    (joined false (t :: ts)).head? = t.spelling.toList.head? := by
  obtain ⟨c, cs, spelled, -⟩ := proper.exists_spelling
  rw [joined_false_cons proper.ne_docComment, spelled]
  rfl

/-- After a word, joined tokens start as their first token if it is none. -/
theorem stopsAt_joined_true_iff
    {p : Char → Bool} (blank : p ' ' = false) (proper : t.IsProper)
    (ts : List Token) :
    StopsAt p (joined true (t :: ts)) ↔
      t.isWord = true ∨ ¬ t.StartsWith p := by
  obtain ⟨c, cs, spelled, -⟩ := proper.exists_spelling
  rw [joined_cons proper.ne_docComment, StopsAt, StartsWith, spelled]
  cases t.isWord with
  | true => simp [blank]
  | false => simp

end Spellings

/-! ## First characters of joined tokens -/

section First

variable {t : Token} {ts : List Token} {c : Char} {rest : List Char}

theorem any_beq_iff {first : Option Char} :
    first.any (· == c) = true ↔ first = some c := by
  rw [Option.any_eq_true]
  constructor
  · rintro ⟨d, found, same⟩
    rw [found, eq_of_beq same]
  · intro found
    exact ⟨c, found, beq_self_eq_true c⟩

theorem startsWith_beq_iff :
    t.StartsWith (· == c) ↔ t.spelling.toList.head? = some c :=
  any_beq_iff

/-- The first character of joined tokens is that of the first token. -/
theorem any_head?_joined_iff
    (proper : ∀ u ∈ ts, u.IsProper) (p : Char → Bool) :
    (joined false ts).head?.any p = true ↔
      ∃ u us, ts = u :: us ∧ u.StartsWith p := by
  cases ts with
  | nil => exact iff_of_false Bool.false_ne_true nofun
  | cons u us =>
      rw [head?_joined_false (proper u List.mem_cons_self)]
      constructor
      · exact fun starts => ⟨u, us, rfl, starts⟩
      · rintro ⟨_, _, ⟨⟩, starts⟩
        exact starts

theorem head?_joined_iff
    (proper : ∀ u ∈ ts, u.IsProper) :
    (joined false ts).head? = some c ↔
      ∃ u us, ts = u :: us ∧ u.spelling.toList.head? = some c := by
  rw [← any_beq_iff, any_head?_joined_iff proper]
  simp only [startsWith_beq_iff]

/-- A mark that no other token starts with is known by its character. -/
theorem head?_joined_punct_iff
    (proper : ∀ u ∈ ts, u.IsProper)
    (plain : c ∉ ['\\', '\'', '"', '`', '<', '#', '$', '.'])
    (notWord : isNameStart c = false ∧ c.isDigit = false) :
    (joined false ts).head? = some c ↔ ∃ us, ts = .punct c :: us := by
  rw [head?_joined_iff proper]
  constructor
  · rintro ⟨u, us, rfl, starts⟩
    rw [(proper u List.mem_cons_self).eq_punct starts plain notWord]
    exact ⟨us, rfl⟩
  · rintro ⟨us, rfl⟩
    exact ⟨_, us, rfl, by rw [toList_spelling_punct]; rfl⟩

/-- No name or variable goes on into what follows a word. -/
theorem stopsAt_isNameChar_joined
    (proper : ∀ u ∈ ts, u.IsProper) : StopsAt isNameChar (joined true ts) := by
  cases ts with
  | nil => rfl
  | cons u us =>
      have first := proper u List.mem_cons_self
      rw [stopsAt_joined_true_iff rfl first]
      cases word : u.isWord with
      | true => exact .inl rfl
      | false =>
          refine .inr ?_
          rcases first.cases_of_not_isWord word with rfl | rfl | ⟨c, rfl, mark⟩
          · exact Bool.false_ne_true
          · exact Bool.false_ne_true
          · rw [StartsWith, toList_spelling_punct]
            simp [isNameChar, mark.noDigit, mark.noLetter]

end First

/-! ## Visible characters -/

/-- The number of characters that are no blanks. -/
def visible (cs : List Char) : Nat := cs.countP (!isBlank ·)

/-- The number of such characters in the spellings of tokens. -/
def visibleIn (ts : List Token) : Nat :=
  visible (ts.flatMap (·.spelling.toList))

section Visible

variable {cs : List Char} {ts : List Token}

theorem visible_append (cs ds : List Char) :
    visible (cs ++ ds) = visible cs + visible ds :=
  List.countP_append

theorem visibleIn_cons (t : Token) (ts : List Token) :
    visibleIn (t :: ts) = visible t.spelling.toList + visibleIn ts := by
  rw [visibleIn, List.flatMap_cons, visible_append]
  rfl

theorem visibleIn_le_of_segments (segments : Segments cs ts) :
    visibleIn ts ≤ visible cs := by
  induction segments with
  | nil => exact Nat.le_refl _
  | token written later ih =>
      rw [visibleIn_cons, visible_append]
      exact Nat.add_le_add_left ih _
  | dropped dropped later ih =>
      rw [visible_append]
      exact Nat.le_add_left_of_le ih

/-- No token of a text has characters that the text does not have. -/
theorem visibleIn_le_of_tokens? (done : tokens? cs = some ts) :
    visibleIn ts ≤ visible cs := by
  rw [tokens?, Option.map_eq_some_iff] at done
  obtain ⟨lexemes, read, rfl⟩ := done
  cases whole : Lexeme.read cs with
  | error fault =>
      rw [whole] at read
      cases read
  | ok others =>
      rw [whole] at read
      cases read
      exact visibleIn_le_of_segments (segments_of_readFrom whole)

/-- Joining adds blanks only. -/
theorem visible_joined
    (proper : ∀ t ∈ ts, t.IsProper) (afterWord : Bool) :
    visible (joined afterWord ts) = visibleIn ts := by
  induction ts generalizing afterWord with
  | nil => rfl
  | cons t ts ih =>
      rw [List.forall_mem_cons] at proper
      rw [joined_cons proper.1.ne_docComment, visible_append, visible_append,
        ih proper.2, visibleIn_cons]
      cases afterWord && t.isWord with
      | true => exact Nat.zero_add _
      | false => exact Nat.zero_add _

end Visible

/-! ## Reading joined tokens -/

section Reading

variable {t : Token} {ts : List Token} {rest : List Char}

theorem tokens?_of_isReadBefore (before : t.IsReadBefore rest) :
    tokens? (t.spelling.toList ++ rest) = (tokens? rest).map (t :: ·) := by
  obtain ⟨c, cs, shape, spelled, measured, stands⟩ := before
  have text : cs = (cs ++ rest).take cs.length := List.take_left.symm
  rw [text] at stands
  rw [spelled, List.cons_append, tokens?_of_measure measured, stands,
    List.drop_left]
  rfl

/-- If the first token is read, it is read before the rest: as many characters
as are left cannot come out of fewer. -/
theorem isReadBefore_of_tokens?
    (proper : t.IsProper) (left : visible rest ≤ visibleIn ts)
    (done : tokens? (t.spelling.toList ++ rest) = some (t :: ts)) :
    t.IsReadBefore rest := by
  obtain ⟨c, cs, spelled, notBlank⟩ := proper.exists_spelling
  rw [spelled, List.cons_append] at done
  cases measured : Lexeme.Reading.measure c (cs ++ rest) with
  | error construct =>
      rw [tokens?_of_measure_error measured] at done
      cases done
  | ok found =>
      obtain ⟨shape, n⟩ := found
      rw [tokens?_of_measure measured] at done
      obtain ⟨others, later, whole⟩ := Option.map_eq_some_iff.mp done
      cases stands : Lexeme.token? ⟨shape, c :: (cs ++ rest).take n⟩ with
      | none =>
          -- the first character would be lost
          rw [stands] at whole
          obtain rfl : others = t :: ts := whole
          have found := visibleIn_le_of_tokens? later
          have shorter : visible ((cs ++ rest).drop n) ≤ visible (cs ++ rest) :=
            (List.drop_sublist n _).countP_le
          have first : visible (c :: cs) = visible cs + 1 :=
            List.countP_cons_of_pos (by rw [notBlank]; rfl)
          rw [visibleIn_cons, spelled, first] at found
          rw [visible_append] at shorter
          omega
      | some u =>
          rw [stands] at whole
          obtain ⟨rfl, rfl⟩ := List.cons.inj whole
          have segment := Lexeme.isSegment_of_measured
            (measured_of_measure measured)
          rw [Lexeme.IsSegment, stands] at segment
          have same := (List.cons.inj (spelled.symm.trans segment.2)).2
          have length : n = cs.length := by
            have within := (measured_of_measure measured).le_length
            have lengths := congrArg List.length same
            rw [List.length_take_of_le within] at lengths
            exact lengths.symm
          rw [← same] at stands
          exact ⟨c, cs, shape, spelled, length ▸ measured, stands⟩

theorem tokens?_joined_cons_iff
    (proper : t.IsProper) (others : ∀ u ∈ ts, u.IsProper) (afterWord : Bool) :
    tokens? (joined afterWord (t :: ts)) = some (t :: ts) ↔
      t.IsReadBefore (joined t.isWord ts) ∧
        tokens? (joined t.isWord ts) = some ts := by
  have blank : ∀ cs, tokens? ((if afterWord && t.isWord then [' '] else []) ++ cs) =
      tokens? cs := by
    intro cs
    split
    · exact tokens?_blank (by decide) cs
    · rfl
  rw [joined_cons proper.ne_docComment, blank]
  constructor
  · intro done
    have before := isReadBefore_of_tokens? proper
      (Nat.le_of_eq (visible_joined others t.isWord)) done
    refine ⟨before, ?_⟩
    rw [tokens?_of_isReadBefore before] at done
    obtain ⟨us, later, whole⟩ := Option.map_eq_some_iff.mp done
    obtain ⟨-, rfl⟩ := List.cons.inj whole
    exact later
  · rintro ⟨before, later⟩
    rw [tokens?_of_isReadBefore before, later]
    rfl

end Reading

end Token

end BusReference.Php
