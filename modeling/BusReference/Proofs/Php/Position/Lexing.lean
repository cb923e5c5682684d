import BusReference.Proofs.Php.Position.Cursor

/-!
# Reading tokens by positions

The tokens of a text, read with a cursor.  Each turn of the loop reads one
lexeme and moves the cursor on.  It never takes a stretch that is not in the
text, although the cursor may be moved beyond its end: then the turn ends with a
fault before a stretch is taken.  So the tokens are those that reading what is
left of the text gives, and so are the faults.
-/

namespace BusReference.Php.Position

open BusReference.Text.Blank (isBlank)
open Lexeme.Reading

variable (cs : List Char)

/-- The token that the stretch between two cursors spells, and the second
cursor. -/
def spelled (start stop : Cursor) (make : String → Token) :
    Except Stop (Cursor × Option Token) := do
  let text ← slice cs start.pos stop.pos
  return (stop, some (make (String.ofList text)))

/-- Reads a comment, of which only a doc comment is a token. -/
def readComment (here : Cursor) : Except Stop (Cursor × Option Token) := do
  let stop ← (here.advance cs 2).closeComment cs here.line
  let text ← slice cs here.pos stop.pos
  if ['/', '*', '*'].isPrefixOf text && text != ['/', '*', '*', '/'] then
    return (stop, some (.docComment (String.ofList text)))
  else return (stop, none)

def readQuoted (quote : Char) (here : Cursor) :
    Except Stop (Cursor × Option Token) := do
  let stop ← (here.advance cs 1).closeQuoted cs quote here.line
  spelled cs here stop .literal

/-- Moves the cursor from a `<<<` to the place where a label may stand. -/
def heredocStart (here : Cursor) : Cursor :=
  let lead := (here.advance cs 3).skipWhile cs isIndent
  if (lead.peek cs 0).any fun c => c == '\'' || c == '"' then
    lead.advance cs 1
  else lead

/-- Reads a heredoc.  If no label follows, the cursor is set back and the first
mark is read for itself. -/
def readHeredoc (here : Cursor) : Except Stop (Cursor × Option Token) := do
  let start := heredocStart cs here
  let labelled := start.skipWhile cs isNameChar
  let label ← slice cs start.pos labelled.pos
  if label.isEmpty then
    let back : Cursor := { labelled with pos := here.pos }
    return (back.advance cs 1, some (.punct '<'))
  else
    let stop ← (labelled.skipLine cs).closeHeredoc cs label here.line
    spelled cs here stop .literal

/-- One turn of the loop: reads the lexeme that starts with `c`. -/
def step (c : Char) (here : Cursor) : Except Stop (Cursor × Option Token) :=
  if here.startsWith cs openTag then .ok (here.advance cs 5, none)
  else if here.startsWith cs ['?', '>'] then
    .ok ((here.advance cs 2).skipInline cs, none)
  else if isBlank c then .ok (here.advance cs 1, none)
  else if c = '/' ∧ here.peek cs 1 = some '/' then .ok (here.skipLine cs, none)
  else if c = '#' ∧ here.peek cs 1 = some '[' then
    .ok (here.advance cs 2, some .attributeOpen)
  else if c = '#' then .ok (here.skipLine cs, none)
  else if c = '/' ∧ here.peek cs 1 = some '*' then readComment cs here
  else if c = '\'' ∨ c = '"' ∨ c = '`' then readQuoted cs c here
  else if c = '<' ∧ here.startsWith cs ['<', '<', '<'] then readHeredoc cs here
  else if c = '$' ∧ (here.peek cs 1).any isNameStart then
    let start := here.advance cs 1
    spelled cs start (start.skipWhile cs isNameChar) .variable
  else if c = '.' ∧ here.startsWith cs ['.', '.', '.'] then
    .ok (here.advance cs 3, some .ellipsis)
  else if c.isDigit ∨ (c = '.' ∧ (here.peek cs 1).any Char.isDigit) then
    spelled cs here (here.skipWhile cs isNumberChar) .number
  else if isNameStart c ∨ (c = '\\' ∧ (here.peek cs 1).any isNameStart) then
    spelled cs here (here.skipName cs) .name
  else .ok (here.advance cs 1, some (.punct c))

/-- Reads the tokens from the cursor on. -/
def readTokensFrom (here : Cursor) : Except Stop (List Token) :=
  match next : here.peek cs 0 with
  | none => .ok []
  | some c =>
    match step cs c here with
    | .error stop => .error stop
    | .ok (there, token) =>
      have := Cursor.pos_lt_of_peek next
      if here.pos < there.pos then
        (readTokensFrom there).map (token.toList ++ ·)
      else .error (.defect .standstill)
  termination_by cs.length - here.pos

/-- Reads the tokens of a text. -/
def readTokens : Except Stop (List Token) := readTokensFrom cs {}

variable {cs} {here : Cursor}

/-! ## Turns of the loop -/

theorem spelled_advance
    (inside : here.pos ≤ cs.length) {n : Nat}
    (within : n ≤ (here.rest cs).length) (make : String → Token) :
    spelled cs here (here.advance cs n) make =
      .ok (here.advance cs n,
        some (make (String.ofList ((here.rest cs).take n)))) := by
  rw [spelled, Cursor.slice_advance inside within]
  rfl

/-- What a turn of the loop does, by the lexeme that it reads. -/
def turn (cs : List Char) (here : Cursor) (c : Char) (after : List Char) :
    Except Construct (Shape × Nat) → Except Stop (Cursor × Option Token)
  | .error construct => .error (.fault (.lexical ⟨construct, here.line⟩))
  | .ok (shape, n) =>
    .ok (here.advance cs (n + 1), Lexeme.token? ⟨shape, c :: after.take n⟩)

variable {c : Char}

/-- A lexeme is spelled as it stands in the text. -/
theorem spelled_lexeme
    {after : List Char} (inside : here.pos ≤ cs.length)
    (whole : here.rest cs = c :: after)
    {n : Nat} (within : n ≤ after.length) (make : String → Token) :
    spelled cs here (here.advance cs (n + 1)) make =
      .ok (here.advance cs (n + 1),
        some (make (String.ofList (c :: after.take n)))) := by
  have enough : n + 1 ≤ (here.rest cs).length := by
    rw [whole]
    exact Nat.succ_le_succ within
  rw [spelled_advance inside enough, whole, List.take_succ_cons]

/-- A comment in a line reaches to the end of the line. -/
theorem skipLine_lexeme
    {after : List Char} (whole : here.rest cs = c :: after)
    (onLine : c ≠ '\n') :
    here.skipLine cs = here.advance cs (lineLength after + 1) := by
  rw [Cursor.skipLine_eq, whole, lineLength, lineLength,
    runLength_cons (by simpa using onLine)]

/-- Text outside of the code starts behind the two characters of the tag. -/
theorem skipInline_lexeme
    {after : List Char} (whole : here.rest cs = c :: after) :
    (here.advance cs 2).skipInline cs =
      here.advance cs (1 + inlineLength after.tail + 1) := by
  have left : (c :: after).drop 2 = after.tail := by
    rw [List.drop_succ_cons, List.drop_one]
  rw [Cursor.skipInline_eq, Cursor.rest_advance, whole,
    Cursor.advance_advance, left, Nat.add_right_comm]

theorem pair_isPrefixOf_iff {d e : Char} {after : List Char} :
    [d, e].isPrefixOf (c :: after) = true ↔ c = d ∧ after.head? = some e := by
  rw [List.isPrefixOf_cons_cons, Bool.and_eq_true, beq_iff_eq, eq_comm]
  refine and_congr_right fun _ => ?_
  cases after with
  | nil => simp
  | cons f after =>
      rw [List.isPrefixOf_cons_cons, List.isPrefixOf_nil_left, Bool.and_true,
        beq_iff_eq, List.head?_cons, Option.some.injEq, eq_comm]

theorem and_isPrefixOf_iff {d : Char} {pattern after : List Char} :
    c = d ∧ (d :: pattern).isPrefixOf (c :: after) = true ↔
      c = d ∧ pattern.isPrefixOf after = true := by
  rw [List.isPrefixOf_cons_cons, Bool.and_eq_true, beq_iff_eq]
  exact ⟨fun ⟨same, _, starts⟩ => ⟨same, starts⟩,
    fun ⟨same, starts⟩ => ⟨same, same.symm, starts⟩⟩

/-- What a comment is can be seen from its text. -/
theorem isDocComment_eq {n : Nat} {cs : List Char}
    (closed : commentLength cs = some n) :
    (['/', '*', '*'].isPrefixOf ('/' :: '*' :: cs.take n) &&
        '/' :: '*' :: cs.take n != ['/', '*', '*', '/']) =
      isDocComment n cs := by
  obtain ⟨body, rest, rfl, rfl, -⟩ := exists_of_commentLength closed
  rw [List.take_left' (by simp [commentEnd])]
  cases body with
  | nil => rfl
  | cons d body =>
      have longer : '/' :: '*' :: (d :: body ++ commentEnd) ≠
          ['/', '*', '*', '/'] := by
        intro same
        simpa [commentEnd] using congrArg List.length same
      rw [bne_iff_ne.mpr longer, Bool.and_true]
      have star : ('*' == d) = (some d == some '*') := by
        rw [Bool.eq_iff_iff, beq_iff_eq, beq_iff_eq, Option.some.injEq,
          eq_comm]
      have more : 2 < (d :: body).length + 2 := by
        rw [List.length_cons]
        omega
      rw [isDocComment, decide_eq_true more, Bool.and_true]
      simp only [List.cons_append, List.isPrefixOf_cons_cons,
        beq_self_eq_true, Bool.true_and, List.isPrefixOf_nil_left,
        Bool.and_true, List.head?_cons]
      exact star

theorem readComment_eq
    {after : List Char} (inside : here.pos ≤ cs.length)
    (whole : here.rest cs = '/' :: '*' :: after) :
    readComment cs here =
      turn cs here '/' ('*' :: after)
        (match commentLength after with
        | none => .error .comment
        | some n =>
          .ok (if isDocComment n after then .docComment else .blockComment,
            n + 1)) := by
  have left : (here.advance cs 2).rest cs = after := by
    rw [Cursor.rest_advance, whole]
    rfl
  rw [readComment, Cursor.closeComment_eq, left]
  cases closed : commentLength after with
  | none => rfl
  | some n =>
      have within : 2 + n ≤ (here.rest cs).length := by
        rw [whole, Nat.add_comm]
        exact Nat.add_le_add_right (commentLength_le closed) 2
      have taken : (here.rest cs).take (2 + n) =
          '/' :: '*' :: after.take n := by
        rw [whole, Nat.add_comm]
        rfl
      change (slice cs here.pos ((here.advance cs 2).advance cs n).pos >>= _) =
        _
      rw [Cursor.advance_advance, Cursor.slice_advance inside within, taken]
      change (if _ then _ else _) = _
      rw [isDocComment_eq closed]
      have moved : n + 1 + 1 = 2 + n := by omega
      rw [turn, moved]
      split <;> rfl

theorem readQuoted_eq
    {quote : Char} {after : List Char} (inside : here.pos ≤ cs.length)
    (whole : here.rest cs = quote :: after) :
    readQuoted cs quote here =
      turn cs here quote after
        (match quotedLength quote after with
        | none => .error .string
        | some n => .ok (.quoted, n)) := by
  have left : (here.advance cs 1).rest cs = after := by
    rw [Cursor.rest_advance, whole]
    rfl
  rw [readQuoted, Cursor.closeQuoted_eq, left]
  cases closed : quotedLength quote after with
  | none => rfl
  | some n => exact spelled_lexeme inside whole (quotedLength_le closed) _

/-- A label follows the blanks and the quote behind `<<<`. -/
theorem heredocStart_eq
    {after : List Char} (whole : here.rest cs = '<' :: '<' :: '<' :: after) :
    heredocStart cs here = here.advance cs (3 + heredocLeadLength after) := by
  have left : (here.advance cs 3).rest cs = after := by
    rw [Cursor.rest_advance, whole]
    rfl
  have moved : (here.advance cs 3).skipWhile cs isIndent =
      here.advance cs (3 + runLength isIndent after) := by
    rw [Cursor.skipWhile_eq, left, Cursor.advance_advance]
  have next : (here.advance cs (3 + runLength isIndent after)).peek cs 0 =
      (after.drop (runLength isIndent after)).head? := by
    rw [Cursor.peek_eq, Cursor.rest_advance, ← List.drop_drop,
      ← Cursor.rest_advance, left, ← List.head?_eq_getElem?]
  rw [heredocStart, moved, heredocLeadLength, next]
  split
  · rw [Cursor.advance_advance, Nat.add_assoc]
  · rfl

/-- No line ends between `<<<` and a label. -/
theorem line_advance_heredocStart
    {after : List Char} (whole : here.rest cs = '<' :: '<' :: '<' :: after) :
    (here.advance cs (3 + heredocLeadLength after)).line = here.line := by
  obtain ⟨lead, rest, rfl, length, leads⟩ := exists_of_heredocLeadLength after
  rw [Cursor.line_advance, whole, length, Nat.add_comm 3]
  have taken : ('<' :: '<' :: '<' :: (lead ++ rest)).take (lead.length + 3) =
      '<' :: '<' :: '<' :: lead := by
    rw [List.take_succ_cons, List.take_succ_cons, List.take_succ_cons,
      List.take_left]
  rw [taken, List.count_eq_zero_of_not_mem]
  · rfl
  · simpa using leads.newline_not_mem

theorem readHeredoc_eq
    {after : List Char} (inside : here.pos ≤ cs.length)
    (whole : here.rest cs = '<' :: '<' :: '<' :: after) :
    readHeredoc cs here =
      turn cs here '<' ('<' :: '<' :: after)
        (match heredocLength? after with
        | none => .ok (.punct, 0)
        | some none => .error .heredoc
        | some (some n) => .ok (.heredoc, n + 2)) := by
  have left : ∀ n, (here.advance cs (3 + n)).rest cs = after.drop n := by
    intro n
    rw [Cursor.rest_advance, whole, Nat.add_comm]
    rfl
  have total : after.length + 3 = cs.length - here.pos := by
    have length : (here.rest cs).length = cs.length - here.pos :=
      List.length_drop
    rwa [whole] at length
  have start := heredocStart_eq whole
  have line := line_advance_heredocStart whole
  have bounded := heredocLeadLength_le after
  generalize lead : heredocLeadLength after = n at *
  have named : (here.advance cs (3 + n)).skipWhile cs isNameChar =
      here.advance cs
        (3 + (n + ((after.drop n).takeWhile isNameChar).length)) := by
    rw [Cursor.skipWhile_eq, left, Cursor.advance_advance, Nat.add_assoc]
    rfl
  have taken : slice cs (here.advance cs (3 + n)).pos
      (here.advance cs
        (3 + (n + ((after.drop n).takeWhile isNameChar).length))).pos =
        .ok ((after.drop n).takeWhile isNameChar) := by
    have within : (here.advance cs (3 + n)).pos ≤ cs.length := by
      rw [Cursor.pos_advance]
      omega
    have moved : ∀ k, here.advance cs (3 + (n + k)) =
        (here.advance cs (3 + n)).advance cs k := by
      intro k
      rw [Cursor.advance_advance, Nat.add_assoc]
    rw [moved, Cursor.slice_advance within, left]
    · exact congrArg Except.ok (take_runLength isNameChar _)
    · rw [left]
      exact (List.takeWhile_prefix _).length_le
  rw [readHeredoc, start, named, taken, heredocLength?, lead]
  change (if _ then _ else _) = _
  dsimp only
  generalize label : (after.drop n).takeWhile isNameChar = name
  by_cases unnamed : name.isEmpty = true
  · rw [if_pos unnamed, if_pos unnamed]
    have empty : name = [] := List.isEmpty_iff.mp unnamed
    subst empty
    rw [List.length_nil, Nat.add_zero, line]
    rfl
  · rw [if_neg unnamed, if_neg unnamed, List.drop_drop]
    have opened : (here.advance cs (3 + (n + name.length))).skipLine cs =
        here.advance cs (3 + (n + name.length +
          lineLength (after.drop (n + name.length)))) := by
      rw [Cursor.skipLine_eq, left, Cursor.advance_advance, Nat.add_assoc]
    rw [opened, Cursor.closeHeredoc_eq, left]
    generalize lineEnd : n + name.length +
      lineLength (after.drop (n + name.length)) = k at *
    cases closed : heredocBodyLength name (after.drop k) with
    | none => rfl
    | some m =>
        have whole' : heredocLength? after = some (some (k + m)) := by
          simp only [heredocLength?, lead, label, if_neg unnamed,
            List.drop_drop, lineEnd, closed, Option.map_some]
        have within : k + m + 2 ≤ ('<' :: '<' :: after).length :=
          Nat.add_le_add_right (heredocLength?_le whole') 2
        have moved : (here.advance cs (3 + k)).advance cs m =
            here.advance cs (k + m + 2 + 1) := by
          rw [Cursor.advance_advance]
          congr 1
          omega
        change spelled cs here ((here.advance cs (3 + k)).advance cs m) _ = _
        rw [moved]
        exact spelled_lexeme inside whole within _

theorem isNumberChar_of_starts
    {after : List Char}
    (starts : c.isDigit = true ∨
      c = '.' ∧ after.head?.any Char.isDigit = true) :
    isNumberChar c = true := by
  rcases starts with digit | ⟨rfl, -⟩
  · simp [isNumberChar, Char.isAlphanum, digit]
  · rfl

theorem goesOn_of_starts
    {after : List Char}
    (starts : isNameStart c = true ∨
      c = '\\' ∧ after.head?.any isNameStart = true) :
    (isNameChar c || (c == '\\' &&
      after.head?.any fun d => isNameStart d || d == '\x7b')) = true := by
  rcases starts with letter | ⟨rfl, follows⟩
  · simp [isNameChar, letter]
  · cases first : after.head? with
    | none => rw [first] at follows; cases follows
    | some d =>
        rw [first] at follows
        have letter : isNameStart d = true := follows
        simp [letter]

/-- A turn of the loop does what the measure of the lexeme says. -/
theorem step_eq (next : here.peek cs 0 = some c) :
    step cs c here =
      turn cs here c ((here.advance cs 1).rest cs)
        (Lexeme.Reading.measure c ((here.advance cs 1).rest cs)) := by
  have whole := Cursor.peek_zero_eq_some_iff.mp next
  have inside := Nat.le_of_lt (Cursor.pos_lt_of_peek next)
  obtain ⟨after, left⟩ : ∃ after, (here.advance cs 1).rest cs = after :=
    ⟨_, rfl⟩
  rw [left] at whole
  unfold step Lexeme.Reading.measure
  simp only [Cursor.startsWith_eq, Cursor.peek_one, whole, left,
    pair_isPrefixOf_iff, and_isPrefixOf_iff]
  by_cases opens : openTag.isPrefixOf (c :: after) = true
  · rw [if_pos opens, if_pos opens]
    rfl
  rw [if_neg opens, if_neg opens]
  by_cases closes : c = '?' ∧ after.head? = some '>'
  · rw [if_pos closes, if_pos closes, skipInline_lexeme whole]
    rfl
  rw [if_neg closes, if_neg closes]
  by_cases blank : isBlank c = true
  · rw [if_pos blank, if_pos blank]
    rfl
  rw [if_neg blank, if_neg blank]
  by_cases slashes : c = '/' ∧ after.head? = some '/'
  · rw [if_pos slashes, if_pos slashes,
      skipLine_lexeme whole (slashes.1 ▸ by decide)]
    rfl
  rw [if_neg slashes, if_neg slashes]
  by_cases hash : c = '#'
  · by_cases bracket : after.head? = some '['
    · rw [if_pos ⟨hash, bracket⟩, if_pos hash, if_pos bracket]
      rfl
    · rw [if_neg fun both => bracket both.2, if_pos hash, if_pos hash,
        if_neg bracket, skipLine_lexeme whole (hash ▸ by decide)]
      rfl
  rw [if_neg fun both => hash both.1, if_neg hash, if_neg hash]
  by_cases comments : c = '/' ∧ after.head? = some '*'
  · rw [if_pos comments, if_pos comments]
    obtain ⟨rfl, star⟩ := comments
    obtain ⟨body, rfl⟩ := List.head?_eq_some_iff.mp star
    exact readComment_eq inside whole
  rw [if_neg comments, if_neg comments]
  by_cases quotes : c = '\'' ∨ c = '"' ∨ c = '`'
  · rw [if_pos quotes, if_pos quotes]
    exact readQuoted_eq inside whole
  rw [if_neg quotes, if_neg quotes]
  by_cases heredoc : c = '<' ∧ ['<', '<'].isPrefixOf after = true
  · rw [if_pos heredoc, if_pos heredoc]
    obtain ⟨rfl, angles⟩ := heredoc
    obtain ⟨body, rfl⟩ := List.isPrefixOf_iff_prefix.mp angles
    exact readHeredoc_eq inside whole
  rw [if_neg heredoc, if_neg heredoc]
  by_cases dollar : c = '$' ∧ after.head?.any isNameStart = true
  · rw [if_pos dollar, if_pos dollar]
    have within : (here.advance cs 1).pos ≤ cs.length := by
      rw [Cursor.pos_advance]
      exact Cursor.pos_lt_of_peek next
    rw [Cursor.skipWhile_eq, left, spelled_advance within, left]
    · rfl
    · rw [left]
      exact runLength_le _ _
  rw [if_neg dollar, if_neg dollar]
  by_cases dots : c = '.' ∧ ['.', '.'].isPrefixOf after = true
  · rw [if_pos dots, if_pos dots]
    rfl
  rw [if_neg dots, if_neg dots]
  by_cases number : c.isDigit = true ∨
      c = '.' ∧ after.head?.any Char.isDigit = true
  · rw [if_pos number, if_pos number, Cursor.skipWhile_eq, whole,
      runLength_cons (isNumberChar_of_starts number)]
    exact spelled_lexeme inside whole (runLength_le _ _) _
  rw [if_neg number, if_neg number]
  by_cases name : isNameStart c = true ∨
      c = '\\' ∧ after.head?.any isNameStart = true
  · rw [if_pos name, if_pos name, Cursor.skipName_eq, whole,
      nameLength_cons, if_pos (goesOn_of_starts name)]
    exact spelled_lexeme inside whole (nameLength_le _) _
  rw [if_neg name, if_neg name]
  rfl

/-! ## All turns -/

/-- Every turn of the loop moves the cursor on, but not beyond the end. -/
theorem pos_lt_of_step
    {there : Cursor} {token : Option Token}
    (next : here.peek cs 0 = some c)
    (done : step cs c here = .ok (there, token)) :
    here.pos < there.pos ∧ there.pos ≤ cs.length := by
  rw [step_eq next] at done
  cases measured : measure c ((here.advance cs 1).rest cs) with
  | error construct =>
      rw [measured] at done
      cases done
  | ok lexeme =>
      obtain ⟨shape, n⟩ := lexeme
      rw [measured] at done
      cases done
      have inside := Cursor.pos_lt_of_peek next
      have within := (measured_of_measure measured).le_length
      rw [Cursor.rest, List.length_drop, Cursor.pos_advance] at within
      rw [Cursor.pos_advance]
      omega

/-- The loop gives the tokens of what is left of the text, and its faults. -/
theorem readTokensFrom_eq (here : Cursor) :
    readTokensFrom cs here =
      match Lexeme.readFrom here.line (here.rest cs) with
      | .error fault => .error (.fault (.lexical fault))
      | .ok lexemes => .ok (lexemes.filterMap Lexeme.token?) := by
  fun_induction readTokensFrom cs here with
  | case1 here next =>
      rw [Cursor.peek_zero_eq_none_iff.mp next, Lexeme.readFrom]
      rfl
  | case2 here c next stop failed =>
      rw [step_eq next] at failed
      rw [Cursor.peek_zero_eq_some_iff.mp next, Lexeme.readFrom]
      cases measured : measure c ((here.advance cs 1).rest cs) with
      | error construct =>
          rw [measured] at failed
          cases failed
          rfl
      | ok lexeme =>
          rw [measured] at failed
          cases failed
  | case3 here c next there token done inside later ih =>
      rw [step_eq next] at done
      rw [ih, Cursor.peek_zero_eq_some_iff.mp next, Lexeme.readFrom]
      cases measured : measure c ((here.advance cs 1).rest cs) with
      | error construct =>
          rw [measured] at done
          cases done
      | ok lexeme =>
          obtain ⟨shape, n⟩ := lexeme
          rw [measured] at done
          cases done
          have text : (here.rest cs).take (n + 1) =
              c :: ((here.advance cs 1).rest cs).take n := by
            rw [Cursor.peek_zero_eq_some_iff.mp next]
            rfl
          have left : (here.advance cs (n + 1)).rest cs =
              ((here.advance cs 1).rest cs).drop n := by
            rw [← Cursor.advance_one_advance, Cursor.rest_advance]
          rw [Cursor.line_advance, text, left]
          dsimp only
          cases Lexeme.readFrom _ _ with
          | error fault => rfl
          | ok lexemes =>
              change Except.ok (_ ++ lexemes.filterMap Lexeme.token?) =
                Except.ok ((_ :: lexemes).filterMap Lexeme.token?)
              rw [List.filterMap_cons]
              cases Lexeme.token? _ <;> rfl
  | case4 here c next there token done inside still =>
      exact absurd (pos_lt_of_step next done).1 still

/-- Reading by positions gives the tokens of a text. -/
theorem readTokens_eq (source : String) :
    readTokens source.toList =
      (Token.read source).mapError fun fault => .fault (.lexical fault) := by
  rw [readTokens, readTokensFrom_eq]
  change (match Lexeme.read source.toList with
    | .error fault => _ | .ok lexemes => _) = Except.mapError _
      ((Lexeme.read source.toList).map _)
  cases Lexeme.read source.toList <;> rfl

end BusReference.Php.Position
