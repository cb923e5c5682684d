import BusReference.Proofs.Php.Lexeme.Measures
import BusReference.Php.Fault

/-!
# Cursors in source texts

A reader may keep a whole text and a position in it, where the readers of this
library hand on what is left of the text.  Such a reader can go wrong in ways
that the others cannot: it can ask for a stretch that is not in the text, take a
number from a smaller one, or come back to where it was.  Here these are defects
with which the reader stops.

A cursor may be moved beyond the end of its text.  Moving it through the text
drops characters from what is left, and every loop moves it as far as the
corresponding length says.
-/

namespace BusReference.Php.Position

open Lexeme.Reading

/-- What must not happen to a reader that works with positions. -/
inductive Defect where
  /-- A stretch or an element is asked for that the list does not have. -/
  | outOfRange
  /-- A number is taken from a smaller one. -/
  | underflow
  /-- A loop comes back to a position where it was. -/
  | standstill
  deriving DecidableEq, Repr

/-- Why a reader that works with positions ends without a result. -/
inductive Stop where
  | fault (fault : Fault)
  | defect (defect : Defect)
  deriving DecidableEq, Repr

/-- The elements from one position up to another one, which have to lie in the
list. -/
def slice {α : Type} (xs : List α) (start stop : Nat) : Except Stop (List α) :=
  if start ≤ stop ∧ stop ≤ xs.length then
    .ok ((xs.drop start).take (stop - start))
  else .error (.defect .outOfRange)

theorem slice_of_le
    {α : Type} {xs : List α} {start stop : Nat}
    (before : start ≤ stop) (within : stop ≤ xs.length) :
    slice xs start stop = .ok ((xs.drop start).take (stop - start)) :=
  if_pos ⟨before, within⟩

/-- A place in a text and the line on which it is. -/
structure Cursor where
  pos : Nat := 0
  line : Nat := 1
  deriving DecidableEq, Repr

namespace Cursor

variable (cs : List Char)

/-- The character some places after the cursor. -/
def peek (here : Cursor) (offset : Nat) : Option Char := cs[here.pos + offset]?

/-- Whether the pattern stands at the cursor. -/
def startsWith (here : Cursor) (pattern : List Char) : Bool :=
  pattern.zipIdx.all fun (c, offset) => here.peek cs offset == some c

/-- Moves the cursor, possibly beyond the end, and counts lines. -/
def advance (here : Cursor) : Nat → Cursor
  | 0 => here
  | n + 1 =>
    advance
      { pos := here.pos + 1
        line := if here.peek cs 0 = some '\n' then here.line + 1
          else here.line }
      n

/-- The text that is left at the cursor. -/
def rest (here : Cursor) : List Char := cs.drop here.pos

variable {cs} {here : Cursor}

theorem peek_eq (offset : Nat) :
    here.peek cs offset = (here.rest cs)[offset]? := by
  rw [peek, rest, List.getElem?_drop]

theorem startsWith_eq (pattern : List Char) :
    here.startsWith cs pattern = pattern.isPrefixOf (here.rest cs) := by
  have stretch : ∀ offset : Nat,
      ((pattern.zipIdx offset).all fun (c, i) => here.peek cs i == some c) =
        pattern.isPrefixOf ((here.rest cs).drop offset) := by
    induction pattern with
    | nil => exact fun _ => List.isPrefixOf_nil_left.symm
    | cons p pattern ih =>
        intro offset
        rw [List.zipIdx_cons, List.all_cons, ih]
        dsimp only
        rw [peek_eq]
        cases left : (here.rest cs).drop offset with
        | nil =>
            rw [List.getElem?_eq_none (List.drop_eq_nil_iff.mp left)]
            rfl
        | cons c after =>
            have first : (here.rest cs)[offset]? = some c := by
              rw [← List.head?_drop, left, List.head?_cons]
            have later : (here.rest cs).drop (offset + 1) = after := by
              rw [← List.tail_drop, left, List.tail_cons]
            rw [first, later, List.isPrefixOf_cons_cons]
            refine congrArg (· && _) (Bool.eq_iff_iff.mpr ?_)
            rw [beq_iff_eq, beq_iff_eq, Option.some.injEq, eq_comm]
  exact stretch 0

@[simp]
theorem pos_advance (n : Nat) : (here.advance cs n).pos = here.pos + n := by
  induction n generalizing here with
  | zero => rfl
  | succ n ih =>
      rw [advance, ih, Nat.add_assoc, Nat.add_comm 1]

/-- A cursor may stand beyond the end of its text. -/
example : (advance ['\\'] {} 2).pos = 2 := rfl

@[simp]
theorem rest_advance (n : Nat) :
    (here.advance cs n).rest cs = (here.rest cs).drop n := by
  rw [rest, rest, pos_advance, List.drop_drop]

theorem peek_zero_eq_some_iff {c : Char} :
    here.peek cs 0 = some c ↔
      here.rest cs = c :: (here.advance cs 1).rest cs := by
  rw [peek_eq, rest_advance, ← List.head?_eq_getElem?]
  constructor
  · intro first
    obtain ⟨after, same⟩ := List.head?_eq_some_iff.mp first
    rw [same, List.drop_succ_cons, List.drop_zero]
  · intro same
    rw [same, List.head?_cons]

theorem peek_zero_eq_none_iff :
    here.peek cs 0 = none ↔ here.rest cs = [] := by
  rw [peek_eq, ← List.head?_eq_getElem?, List.head?_eq_none_iff]

theorem advance_one_advance (n : Nat) :
    (here.advance cs 1).advance cs n = here.advance cs (n + 1) :=
  rfl

theorem line_advance (n : Nat) :
    (here.advance cs n).line =
      here.line + ((here.rest cs).take n).count '\n' := by
  induction n generalizing here with
  | zero => rfl
  | succ n ih =>
      have first : (here.advance cs 1).line =
          if here.peek cs 0 = some '\n' then here.line + 1 else here.line :=
        rfl
      rw [← advance_one_advance, ih, first]
      cases next : here.peek cs 0 with
      | none =>
          rw [rest_advance, peek_zero_eq_none_iff.mp next]
          simp
      | some c =>
          rw [peek_zero_eq_some_iff.mp next, List.take_succ_cons,
            List.count_cons]
          by_cases ends : c = '\n'
          · simp [ends]
            omega
          · simp [ends]

theorem advance_advance (m n : Nat) :
    (here.advance cs m).advance cs n = here.advance cs (m + n) := by
  induction m generalizing here with
  | zero => rw [advance, Nat.zero_add]
  | succ m ih => rw [advance, ih, Nat.succ_add, advance]

theorem pos_lt_of_peek
    {c : Char} (next : here.peek cs 0 = some c) : here.pos < cs.length :=
  (List.getElem?_eq_some_iff.mp next).1

/-- The text that a cursor was moved over can be taken, if the cursor was not
moved beyond the end. -/
theorem slice_advance
    (inside : here.pos ≤ cs.length) {n : Nat}
    (within : n ≤ (here.rest cs).length) :
    slice cs here.pos (here.advance cs n).pos =
      .ok ((here.rest cs).take n) := by
  rw [rest, List.length_drop] at within
  rw [pos_advance, slice_of_le (Nat.le_add_right _ _) (by omega),
    Nat.add_sub_cancel_left]
  rfl

/-! ## Loops -/

variable (cs)

/-- Moves the cursor as long as the characters pass the test. -/
def skipWhile (p : Char → Bool) (here : Cursor) : Cursor :=
  match next : here.peek cs 0 with
  | some c =>
    have := pos_lt_of_peek next
    if p c then skipWhile p (here.advance cs 1) else here
  | none => here
  termination_by cs.length - here.pos
  decreasing_by rw [pos_advance]; omega

/-- Moves the cursor to the end of its line. -/
def skipLine (here : Cursor) : Cursor := here.skipWhile cs (· != '\n')

/-- Moves the cursor to the next opening tag or to the end of the text. -/
def skipInline (here : Cursor) : Cursor :=
  match next : here.peek cs 0 with
  | some _ =>
    have := pos_lt_of_peek next
    if here.startsWith cs openTag then here
    else skipInline (here.advance cs 1)
  | none => here
  termination_by cs.length - here.pos
  decreasing_by rw [pos_advance]; omega

/-- Moves the cursor over a qualified name. -/
def skipName (here : Cursor) : Cursor :=
  match next : here.peek cs 0 with
  | some c =>
    have := pos_lt_of_peek next
    if isNameChar c || (c == '\\' &&
        (here.peek cs 1).any fun d => isNameStart d || d == '\x7b') then
      skipName (here.advance cs 1)
    else here
  | none => here
  termination_by cs.length - here.pos
  decreasing_by rw [pos_advance]; omega

/-- Moves the cursor behind the end of a comment. -/
def closeComment (startLine : Nat) (here : Cursor) : Except Stop Cursor :=
  match next : here.peek cs 0 with
  | none => .error (.fault (.lexical ⟨.comment, startLine⟩))
  | some _ =>
    have := pos_lt_of_peek next
    if here.startsWith cs commentEnd then .ok (here.advance cs 2)
    else closeComment startLine (here.advance cs 1)
  termination_by cs.length - here.pos
  decreasing_by rw [pos_advance]; omega

/-- Moves the cursor behind the closing quote.  At a backslash it is moved two
places at once, which may lead beyond the end of the text. -/
def closeQuoted (quote : Char) (startLine : Nat) (here : Cursor) :
    Except Stop Cursor :=
  match next : here.peek cs 0 with
  | none => .error (.fault (.lexical ⟨.string, startLine⟩))
  | some c =>
    have := pos_lt_of_peek next
    if c = '\\' then closeQuoted quote startLine (here.advance cs 2)
    else if c = quote then .ok (here.advance cs 1)
    else closeQuoted quote startLine (here.advance cs 1)
  termination_by cs.length - here.pos
  decreasing_by all_goals rw [pos_advance]; omega

variable {cs}

theorem skipWhile_eq (p : Char → Bool) (here : Cursor) :
    here.skipWhile cs p = here.advance cs (runLength p (here.rest cs)) := by
  fun_induction skipWhile cs p here with
  | case1 here c next inside passes ih =>
      rw [ih, advance_one_advance, peek_zero_eq_some_iff.mp next]
      simp only [runLength, List.takeWhile_cons_of_pos passes, List.length_cons]
  | case2 here c next inside fails =>
      rw [peek_zero_eq_some_iff.mp next, runLength,
        List.takeWhile_cons_of_neg fails]
      rfl
  | case3 here next =>
      rw [peek_zero_eq_none_iff.mp next]
      rfl

theorem skipLine_eq (here : Cursor) :
    here.skipLine cs = here.advance cs (lineLength (here.rest cs)) :=
  skipWhile_eq _ here

theorem skipInline_eq (here : Cursor) :
    here.skipInline cs = here.advance cs (inlineLength (here.rest cs)) := by
  fun_induction skipInline cs here with
  | case1 here c next inside opens =>
      rw [startsWith_eq, peek_zero_eq_some_iff.mp next] at opens
      rw [peek_zero_eq_some_iff.mp next, inlineLength, if_pos opens]
      rfl
  | case2 here c next inside other ih =>
      rw [startsWith_eq, peek_zero_eq_some_iff.mp next] at other
      rw [ih, advance_one_advance, peek_zero_eq_some_iff.mp next,
        inlineLength, if_neg other]
  | case3 here next =>
      rw [peek_zero_eq_none_iff.mp next]
      rfl

theorem peek_one (here : Cursor) :
    here.peek cs 1 = ((here.advance cs 1).rest cs).head? := by
  rw [peek_eq, rest_advance, List.head?_drop]

theorem skipName_eq (here : Cursor) :
    here.skipName cs = here.advance cs (nameLength (here.rest cs)) := by
  fun_induction skipName cs here with
  | case1 here c next inside goesOn ih =>
      rw [peek_one] at goesOn
      rw [ih, advance_one_advance, peek_zero_eq_some_iff.mp next,
        nameLength_cons, if_pos goesOn]
  | case2 here c next inside ends =>
      rw [peek_one] at ends
      rw [peek_zero_eq_some_iff.mp next, nameLength_cons, if_neg ends]
      rfl
  | case3 here next =>
      rw [peek_zero_eq_none_iff.mp next]
      rfl

theorem closeComment_eq (startLine : Nat) (here : Cursor) :
    here.closeComment cs startLine =
      match commentLength (here.rest cs) with
      | none => .error (.fault (.lexical ⟨.comment, startLine⟩))
      | some n => .ok (here.advance cs n) := by
  fun_induction closeComment cs startLine here with
  | case1 here next =>
      rw [peek_zero_eq_none_iff.mp next]
      rfl
  | case2 here c next inside ends =>
      rw [startsWith_eq, List.isPrefixOf_iff_prefix] at ends
      obtain ⟨after, text⟩ := ends
      rw [← text]
      rfl
  | case3 here c next inside other ih =>
      rw [startsWith_eq, List.isPrefixOf_iff_prefix,
        peek_zero_eq_some_iff.mp next] at other
      rw [ih, peek_zero_eq_some_iff.mp next, commentLength_cons other]
      cases commentLength ((here.advance cs 1).rest cs) <;> rfl

theorem closeQuoted_eq (quote : Char) (startLine : Nat) (here : Cursor) :
    here.closeQuoted cs quote startLine =
      match quotedLength quote (here.rest cs) with
      | none => .error (.fault (.lexical ⟨.string, startLine⟩))
      | some n => .ok (here.advance cs n) := by
  fun_induction closeQuoted cs quote startLine here with
  | case1 here next =>
      rw [peek_zero_eq_none_iff.mp next]
      rfl
  | case2 here next inside ih =>
      have later : (here.advance cs 2).rest cs =
          ((here.advance cs 1).rest cs).tail := by
        rw [rest_advance, rest_advance, List.tail_drop]
      rw [ih, later, peek_zero_eq_some_iff.mp next]
      cases (here.advance cs 1).rest cs with
      | nil => rfl
      | cons d after =>
          rw [List.tail_cons, quotedLength]
          cases quotedLength quote after <;> rfl
  | case3 here next inside plain =>
      rw [peek_zero_eq_some_iff.mp next, quotedLength_cons plain, if_pos rfl]
  | case4 here c next inside plain other ih =>
      rw [ih, peek_zero_eq_some_iff.mp next, quotedLength_cons plain,
        if_neg other]
      cases quotedLength quote ((here.advance cs 1).rest cs) <;> rfl

/-! ## Heredocs -/

theorem pos_le_skipWhile (p : Char → Bool) (here : Cursor) :
    here.pos ≤ (here.skipWhile cs p).pos := by
  rw [skipWhile_eq, pos_advance]
  exact Nat.le_add_right _ _

variable (cs)

/-- Moves the cursor from the end of a line behind the closing label of a
heredoc. -/
def closeHeredoc (label : List Char) (startLine : Nat) (here : Cursor) :
    Except Stop Cursor :=
  match next : here.peek cs 0 with
  | none => .error (.fault (.lexical ⟨.heredoc, startLine⟩))
  | some _ =>
    let line := (here.advance cs 1).skipWhile cs isIndent
    have := pos_lt_of_peek next
    have : here.pos < (line.skipLine cs).pos :=
      calc here.pos
        _ < (here.advance cs 1).pos := by rw [pos_advance]; omega
        _ ≤ line.pos := pos_le_skipWhile _ _
        _ ≤ (line.skipLine cs).pos := pos_le_skipWhile _ _
    if line.startsWith cs label &&
        !(line.peek cs label.length).any isNameChar then
      .ok (line.advance cs label.length)
    else closeHeredoc label startLine (line.skipLine cs)
  termination_by cs.length - here.pos
  decreasing_by exact Nat.sub_lt_sub_left ‹_› ‹_›

variable {cs}

theorem closesHeredoc_eq (label : List Char) (here : Cursor) :
    (here.startsWith cs label &&
        !(here.peek cs label.length).any isNameChar) =
      closesHeredoc label (here.rest cs) := by
  rw [startsWith_eq, peek_eq, closesHeredoc, List.head?_drop]

theorem closeHeredoc_eq
    (label : List Char) (startLine : Nat) (here : Cursor) :
    here.closeHeredoc cs label startLine =
      match heredocBodyLength label (here.rest cs) with
      | none => .error (.fault (.lexical ⟨.heredoc, startLine⟩))
      | some n => .ok (here.advance cs n) := by
  have indented : ∀ here : Cursor,
      (here.advance cs 1).skipWhile cs isIndent = here.advance cs
        (1 + runLength isIndent ((here.advance cs 1).rest cs)) := by
    intro here
    rw [skipWhile_eq, advance_advance]
  have unindented : ∀ here : Cursor,
      ((here.advance cs 1).skipWhile cs isIndent).rest cs =
        ((here.advance cs 1).rest cs).drop
          (runLength isIndent ((here.advance cs 1).rest cs)) := by
    intro here
    rw [skipWhile_eq, rest_advance]
  fun_induction closeHeredoc cs label startLine here with
  | case1 here next =>
      rw [peek_zero_eq_none_iff.mp next, heredocBodyLength]
  | case2 here c next line inside later closes =>
      rw [closesHeredoc_eq, unindented] at closes
      have moved : line = _ := indented here
      rw [peek_zero_eq_some_iff.mp next, heredocBodyLength_cons,
        if_pos closes, moved, advance_advance]
  | case3 here c next line inside later other ih =>
      rw [closesHeredoc_eq, unindented] at other
      rw [ih, peek_zero_eq_some_iff.mp next, heredocBodyLength_cons,
        if_neg other, skipLine_eq, rest_advance, unindented]
      have moved : line = _ := indented here
      cases heredocBodyLength label _ with
      | none => rfl
      | some n =>
          rw [moved, advance_advance]
          exact congrArg Except.ok (advance_advance _ n)

end Cursor

end BusReference.Php.Position
