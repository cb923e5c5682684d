import BusReference.Proofs.Php.Position.Lexing
import BusReference.Proofs.Php.Lexeme.Unterminated

/-!
# Lines of constructs without an end

The message about a construct without an end names the line on which the
construct starts.  The line comes from the cursor, which counts the line feeds
that it is moved over.  Every turn of the loop moves the cursor by the characters
of a whole lexeme, also where it was set back before, and so the count is right
wherever a turn begins.  With that the text fails to be read exactly where
reading it comes to a construct without an end.
-/

namespace BusReference.Php.Position

/-- The cursors with which the turns of the loop begin. -/
inductive Reached (cs : List Char) : Cursor → Prop
  | start : Reached cs {}
  | turn {here there : Cursor} {c : Char} {token : Option Token}
      (before : Reached cs here) (next : here.peek cs 0 = some c)
      (done : step cs c here = .ok (there, token)) :
      Reached cs there

/-- The cursor's line is the line of its place. -/
def Cursor.OnItsLine (cs : List Char) (here : Cursor) : Prop :=
  here.line = 1 + (cs.take here.pos).count '\n'

variable {cs : List Char} {here there : Cursor} {c : Char}

theorem Cursor.OnItsLine.advance
    (counted : here.OnItsLine cs) (n : Nat) :
    (here.advance cs n).OnItsLine cs := by
  have taken : cs.take (here.pos + n) =
      cs.take here.pos ++ (here.rest cs).take n :=
    List.take_add
  rw [OnItsLine, Cursor.line_advance, Cursor.pos_advance, taken,
    List.count_append, counted, Nat.add_assoc]

theorem exists_advance_of_step
    {token : Option Token} (next : here.peek cs 0 = some c)
    (done : step cs c here = .ok (there, token)) :
    ∃ n, there = here.advance cs n := by
  rw [step_eq next] at done
  cases measured : Lexeme.Reading.measure c ((here.advance cs 1).rest cs) with
  | error construct =>
      rw [measured] at done
      cases done
  | ok lexeme =>
      rw [measured] at done
      cases done
      exact ⟨lexeme.2 + 1, rfl⟩

theorem Reached.onItsLine (reached : Reached cs here) :
    here.OnItsLine cs := by
  induction reached with
  | start => rfl
  | turn before next done ih =>
      obtain ⟨n, rfl⟩ := exists_advance_of_step next done
      exact ih.advance n

/-! ## Faults -/

/-- A turn of the loop fails only for a construct without an end, and names the
line of the cursor with which it begins. -/
theorem step_eq_error_iff
    {stop : Stop} (next : here.peek cs 0 = some c) :
    step cs c here = .error stop ↔
      ∃ construct, Unterminated construct (here.rest cs) ∧
        stop = .fault (.lexical ⟨construct, here.line⟩) := by
  rw [step_eq next, Cursor.peek_zero_eq_some_iff.mp next]
  constructor
  · intro failed
    cases measured :
        Lexeme.Reading.measure c ((here.advance cs 1).rest cs) with
    | error construct =>
        rw [measured] at failed
        cases failed
        exact ⟨construct, measure_eq_error_iff.mp measured, rfl⟩
    | ok lexeme =>
        rw [measured] at failed
        cases failed
  · rintro ⟨construct, endless, rfl⟩
    rw [measure_eq_error_iff.mpr endless]
    rfl

section Run

variable {stop : Stop} {token : Option Token}

/-- What the loop does where a character is left. -/
theorem readTokensFrom_of_peek (next : here.peek cs 0 = some c) :
    readTokensFrom cs here =
      match step cs c here with
      | .error stop => .error stop
      | .ok (there, token) =>
          if here.pos < there.pos then
            (readTokensFrom cs there).map (token.toList ++ ·)
          else .error (.defect .standstill) := by
  rw [readTokensFrom]
  split
  · rename_i other
    rw [next] at other
    cases other
  · rename_i d same
    obtain rfl : c = d := Option.some.inj (next.symm.trans same)
    rfl

theorem readTokensFrom_of_error
    (next : here.peek cs 0 = some c) (failed : step cs c here = .error stop) :
    readTokensFrom cs here = .error stop := by
  rw [readTokensFrom_of_peek next, failed]

theorem readTokensFrom_of_turn
    (next : here.peek cs 0 = some c)
    (done : step cs c here = .ok (there, token)) :
    readTokensFrom cs here =
      (readTokensFrom cs there).map (token.toList ++ ·) := by
  rw [readTokensFrom_of_peek next, done]
  exact if_pos (pos_lt_of_step next done).1

theorem exists_reached_of_readTokensFrom
    (reached : Reached cs here)
    (failed : readTokensFrom cs here = .error stop) :
    ∃ there c, Reached cs there ∧ there.peek cs 0 = some c ∧
      step cs c there = .error stop := by
  fun_induction readTokensFrom cs here with
  | case1 => cases failed
  | case2 here c next stop turn =>
      cases failed
      exact ⟨here, c, reached, next, turn⟩
  | case3 here c next there token done inside later ih =>
      cases after : readTokensFrom cs there with
      | error stop =>
          rw [after] at failed
          cases failed
          exact ih (reached.turn next done) after
      | ok tokens =>
          rw [after] at failed
          cases failed
  | case4 here c next there token done inside still =>
      exact absurd (pos_lt_of_step next done).1 still

/-- What stops the loop at a later cursor stops it from the start. -/
theorem Reached.readTokens_eq_error
    (reached : Reached cs here)
    (failed : readTokensFrom cs here = .error stop) :
    readTokens cs = .error stop := by
  induction reached with
  | start => exact failed
  | turn before next done ih =>
      apply ih
      rw [readTokensFrom_of_turn next done, failed]
      rfl

theorem readTokens_eq_error_iff :
    readTokens cs = .error stop ↔
      ∃ construct here, Reached cs here ∧
        Unterminated construct (here.rest cs) ∧
        stop = .fault (.lexical ⟨construct, here.line⟩) := by
  constructor
  · intro failed
    obtain ⟨here, c, reached, next, turn⟩ :=
      exists_reached_of_readTokensFrom .start failed
    obtain ⟨construct, endless, named⟩ := (step_eq_error_iff next).mp turn
    exact ⟨construct, here, reached, endless, named⟩
  · rintro ⟨construct, here, reached, endless, named⟩
    obtain ⟨c, next⟩ : ∃ c, here.peek cs 0 = some c := by
      cases left : here.peek cs 0 with
      | some c => exact ⟨c, rfl⟩
      | none =>
          rw [Cursor.peek_zero_eq_none_iff.mp left] at endless
          cases endless
    refine reached.readTokens_eq_error (readTokensFrom_of_error next ?_)
    exact (step_eq_error_iff next).mpr ⟨construct, endless, named⟩

end Run

/-- A text cannot be read exactly if reading it lexeme by lexeme comes to a
comment, a quoted text or a heredoc whose end does not stand in the rest.  The
message says which of them it is, and the line on which it starts: one more than
the line feeds before it.  The loop that reads by positions stops for the same
reason, and only for that; its counter is right whenever a turn begins. -/
theorem read_fails_iff_unterminated (source : String) :
    (∀ fault, Token.read source = .error fault ↔
      ∃ before rest, source.toList = before ++ rest ∧ ReadsUpTo rest before ∧
        Unterminated fault.construct rest ∧
        fault.line = 1 + before.count '\n') ∧
    (∀ message, (Token.read source).mapError
          (fun fault => (Fault.lexical fault).message) = .error message ↔
      ∃ construct before rest, source.toList = before ++ rest ∧
        ReadsUpTo rest before ∧ Unterminated construct rest ∧
        message = "unterminated " ++ construct.describe ++
          " starting on line " ++
          String.ofList (Nat.toDigits 10 (1 + before.count '\n'))) ∧
    (∀ stop, readTokens source.toList = .error stop ↔
      ∃ construct here, Reached source.toList here ∧
        Unterminated construct (here.rest source.toList) ∧
        stop = .fault (.lexical ⟨construct, here.line⟩)) ∧
    ∀ here, Reached source.toList here →
      here.line = 1 + (source.toList.take here.pos).count '\n' := by
  have faults : ∀ fault, Token.read source = .error fault ↔
      ∃ before rest, source.toList = before ++ rest ∧ ReadsUpTo rest before ∧
        Unterminated fault.construct rest ∧
        fault.line = 1 + before.count '\n' := by
    intro fault
    rw [← Lexeme.readFrom_eq_error_iff, Token.read, Lexeme.read]
    cases Lexeme.readFrom 1 source.toList <;> simp [Except.map]
  refine ⟨faults, fun message => ?_, fun stop => readTokens_eq_error_iff,
    fun here reached => reached.onItsLine⟩
  constructor
  · intro failed
    cases outcome : Token.read source with
    | ok tokens =>
        rw [outcome] at failed
        cases failed
    | error fault =>
        rw [outcome] at failed
        cases failed
        obtain ⟨before, rest, text, passed, endless, counted⟩ :=
          (faults fault).mp outcome
        refine ⟨fault.construct, before, rest, text, passed, endless, ?_⟩
        rw [← counted]
        rfl
  · rintro ⟨construct, before, rest, text, passed, endless, rfl⟩
    have outcome := (faults ⟨construct, 1 + before.count '\n'⟩).mpr
      ⟨before, rest, text, passed, endless, rfl⟩
    rw [outcome]
    rfl

/-- The quote behind the backslash and the end of the line do not end the text,
but count for the line of the comment. -/
example : Token.read "<?php\n'it\\'\n' /* a" = .error ⟨.comment, 3⟩ := by
  cbv

end BusReference.Php.Position
