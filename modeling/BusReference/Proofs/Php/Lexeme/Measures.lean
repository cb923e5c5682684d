import Mathlib.Data.List.TakeWhile
import BusReference.Php.Lexeme

/-!
# Measures of lexemes

What the lengths of lexemes say about the text that is read: where a comment, a
quoted text or a heredoc ends, and what stands before its end.  The lexeme at
the start of a text is of one of the kinds that `Measured` lists.
-/

namespace BusReference.Php.Lexeme.Reading

open BusReference.Text.Blank (isBlank)

/-- The end of a comment in several lines. -/
def commentEnd : List Char := ['*', '/']

/-- Nowhere in the first text does the second start, also if the third follows
the first. -/
def FreeOf (body mark rest : List Char) : Prop :=
  ∀ n < body.length, ¬ mark <+: (body ++ rest).drop n

theorem freeOf_nil (mark rest : List Char) : FreeOf [] mark rest :=
  fun _ inside => absurd inside (Nat.not_lt_zero _)

theorem FreeOf.cons
    {c : Char} {body mark rest : List Char}
    (start : ¬ mark <+: c :: (body ++ rest)) (later : FreeOf body mark rest) :
    FreeOf (c :: body) mark rest := by
  intro n inside
  cases n with
  | zero => exact start
  | succ n => exact later n (Nat.lt_of_succ_lt_succ inside)

/-- A text whose first character passes a test has a first character. -/
theorem exists_cons_of_any_head?
    {p : Char → Bool} {cs : List Char} (starts : cs.head?.any p = true) :
    ∃ c rest, cs = c :: rest ∧ p c = true := by
  cases cs with
  | nil => cases starts
  | cons c rest => exact ⟨c, rest, rfl, starts⟩

theorem runLength_le (p : Char → Bool) (cs : List Char) :
    runLength p cs ≤ cs.length :=
  (List.takeWhile_prefix p).length_le

theorem take_runLength (p : Char → Bool) (cs : List Char) :
    cs.take (runLength p cs) = cs.takeWhile p :=
  (List.prefix_iff_eq_take.mp (List.takeWhile_prefix p)).symm

theorem forall_mem_take_runLength (p : Char → Bool) (cs : List Char) :
    ∀ c ∈ cs.take (runLength p cs), p c = true := by
  rw [take_runLength]
  exact fun c inside => List.mem_takeWhile_imp inside

theorem drop_runLength (p : Char → Bool) (cs : List Char) :
    cs.drop (runLength p cs) = cs.dropWhile p := by
  have whole : cs.takeWhile p ++ cs.dropWhile p = cs :=
    List.takeWhile_append_dropWhile
  calc cs.drop (runLength p cs)
    _ = (cs.takeWhile p ++ cs.dropWhile p).drop (cs.takeWhile p).length := by
        rw [whole, runLength]
    _ = cs.dropWhile p := List.drop_left

theorem FreeOf.of_append
    {body mark rest more : List Char}
    (free : FreeOf body mark (rest ++ more)) : FreeOf body mark rest := by
  intro n inside starts
  refine free n inside (starts.trans ?_)
  have within : n ≤ (body ++ rest).length := by
    rw [List.length_append]
    omega
  rw [← List.append_assoc, List.drop_append_of_le_length within]
  exact List.prefix_append _ _

/-! ## Ends of lexemes -/

/-- The text up to the next opening tag or the end of the text. -/
theorem exists_of_inlineLength (cs : List Char) :
    ∃ body rest, cs = body ++ rest ∧ inlineLength cs = body.length ∧
      (rest = [] ∨ openTag <+: rest) ∧ FreeOf body openTag rest := by
  induction cs with
  | nil => exact ⟨[], [], rfl, rfl, Or.inl rfl, freeOf_nil _ _⟩
  | cons c cs ih =>
      rw [inlineLength]
      split
      · rename_i opens
        exact ⟨[], c :: cs, rfl, rfl,
          Or.inr (List.isPrefixOf_iff_prefix.mp opens), freeOf_nil _ _⟩
      · rename_i closed
        obtain ⟨body, rest, rfl, length, ends, free⟩ := ih
        refine ⟨c :: body, rest, rfl, by rw [length, List.length_cons], ends,
          free.cons ?_⟩
        rwa [← List.isPrefixOf_iff_prefix]

/-- A comment ends at the first place where its end stands. -/
theorem exists_of_commentLength
    {cs : List Char} {n : Nat} (closed : commentLength cs = some n) :
    ∃ body rest, cs = body ++ commentEnd ++ rest ∧ n = body.length + 2 ∧
      FreeOf body commentEnd (commentEnd ++ rest) := by
  fun_induction commentLength cs generalizing n with
  | case1 => cases closed
  | case2 rest =>
      cases closed
      exact ⟨[], rest, rfl, rfl, freeOf_nil _ _⟩
  | case3 c cs other ih =>
      obtain ⟨m, later, rfl⟩ := Option.map_eq_some_iff.mp closed
      obtain ⟨body, rest, rfl, rfl, free⟩ := ih later
      refine ⟨c :: body, rest, rfl, rfl, free.cons ?_⟩
      rintro ⟨after, same⟩
      obtain ⟨star, slash⟩ := List.cons.inj same
      exact other after star.symm (by rw [List.append_assoc, ← slash]; rfl)

/-- A text in which no quote stands but behind a backslash, and which does not
end in the middle of such a pair. -/
inductive Escaped (quote : Char) : List Char → Prop
  | nil : Escaped quote []
  | pair (c : Char) {cs : List Char} (later : Escaped quote cs) :
      Escaped quote ('\\' :: c :: cs)
  | plain {c : Char} {cs : List Char}
      (unquoted : c ≠ quote) (apart : c ≠ '\\') (later : Escaped quote cs) :
      Escaped quote (c :: cs)

/-- A quoted text ends at the first quote that is not escaped. -/
theorem exists_of_quotedLength
    {quote : Char} {cs : List Char} {n : Nat}
    (closed : quotedLength quote cs = some n) :
    ∃ body rest, cs = body ++ quote :: rest ∧ n = body.length + 1 ∧
      Escaped quote body := by
  fun_induction quotedLength quote cs generalizing n with
  | case1 => cases closed
  | case2 => cases closed
  | case3 c cs ih =>
      obtain ⟨m, later, rfl⟩ := Option.map_eq_some_iff.mp closed
      obtain ⟨body, rest, rfl, rfl, escaped⟩ := ih later
      exact ⟨'\\' :: c :: body, rest, rfl, rfl, .pair c escaped⟩
  | case4 cs _ _ =>
      cases closed
      exact ⟨[], cs, rfl, rfl, .nil⟩
  | case5 c cs lone pair unquoted ih =>
      obtain ⟨m, later, rfl⟩ := Option.map_eq_some_iff.mp closed
      obtain ⟨body, rest, rfl, rfl, escaped⟩ := ih later
      refine ⟨c :: body, rest, rfl, rfl, .plain unquoted ?_ escaped⟩
      intro backslash
      cases body with
      | nil => exact pair quote rest backslash rfl
      | cons d body => exact pair d _ backslash rfl

/-- The body of a heredoc ends in its label. -/
theorem exists_of_heredocBodyLength
    {label cs : List Char} {n : Nat}
    (closed : heredocBodyLength label cs = some n) :
    ∃ body rest, cs = body ++ label ++ rest ∧
      n = body.length + label.length := by
  fun_induction heredocBodyLength label cs generalizing n with
  | case1 => cases closed
  | case2 c cs indent line =>
      rename_i closes
      cases closed
      rw [closesHeredoc, Bool.and_eq_true, List.isPrefixOf_iff_prefix]
        at closes
      obtain ⟨⟨rest, same⟩, -⟩ := closes
      refine ⟨c :: cs.take indent, rest, ?_, ?_⟩
      · rw [List.append_assoc, same, List.cons_append, List.take_append_drop]
      · rw [List.length_cons, List.length_take,
          Nat.min_eq_left (runLength_le isIndent cs), Nat.add_comm 1]
  | case3 c cs indent line other m =>
      rename_i ih
      obtain ⟨later, measured, rfl⟩ := Option.map_eq_some_iff.mp closed
      obtain ⟨body, rest, same, rfl⟩ := ih measured
      refine ⟨c :: (cs.take indent ++ line.take m ++ body), rest, ?_, ?_⟩
      · have whole : cs = cs.take indent ++ (line.take m ++ line.drop m) := by
          rw [List.take_append_drop, List.take_append_drop]
        rw [same] at whole
        simpa using whole
      · have within : indent ≤ cs.length := runLength_le isIndent cs
        have inside : m ≤ line.length := runLength_le _ line
        simp only [List.length_cons, List.length_append, List.length_take,
          Nat.min_eq_left within, Nat.min_eq_left inside]
        omega

/-- What may stand between `<<<` and a label: blanks and at most one quote. -/
inductive HeredocLead : List Char → Prop
  | bare {indent : List Char} (blank : ∀ c ∈ indent, isIndent c = true) :
      HeredocLead indent
  | quoted {indent : List Char} {quote : Char}
      (blank : ∀ c ∈ indent, isIndent c = true)
      (mark : quote = '\'' ∨ quote = '"') : HeredocLead (indent ++ [quote])

theorem HeredocLead.newline_not_mem
    {lead : List Char} (leads : HeredocLead lead) : '\n' ∉ lead := by
  have apart : isIndent '\n' = false := rfl
  cases leads with
  | bare blank =>
      intro inside
      rw [blank _ inside] at apart
      cases apart
  | quoted blank mark =>
      intro inside
      rcases List.mem_append.mp inside with indent | last
      · rw [blank _ indent] at apart
        cases apart
      · rw [← List.mem_singleton.mp last] at mark
        simp at mark

theorem exists_of_heredocLeadLength (cs : List Char) :
    ∃ lead rest, cs = lead ++ rest ∧ heredocLeadLength cs = lead.length ∧
      HeredocLead lead := by
  have blank := forall_mem_take_runLength isIndent cs
  have length : (cs.take (runLength isIndent cs)).length =
      runLength isIndent cs :=
    List.length_take_of_le (runLength_le isIndent cs)
  rw [heredocLeadLength]
  split
  · rename_i quoted
    obtain ⟨quote, rest, same, mark⟩ := exists_cons_of_any_head? quoted
    refine ⟨cs.take (runLength isIndent cs) ++ [quote], rest, ?_, ?_,
      .quoted blank (by simpa using mark)⟩
    · rw [List.append_assoc, List.singleton_append, ← same,
        List.take_append_drop]
    · rw [List.length_append, length, List.length_singleton]
  · exact ⟨_, _, (List.take_append_drop _ cs).symm, length.symm, .bare blank⟩

/-- After its `<<<` a heredoc reaches from its label to the place where the
label stands again. -/
theorem exists_of_heredocLength
    {cs : List Char} {n : Nat} (closed : heredocLength? cs = some (some n)) :
    ∃ lead label body rest, cs = lead ++ label ++ body ++ label ++ rest ∧
      n = (lead ++ label ++ body ++ label).length ∧ HeredocLead lead ∧
      label ≠ [] ∧ ∀ c ∈ label, isNameChar c = true := by
  obtain ⟨lead, labelled, rfl, length, leads⟩ := exists_of_heredocLeadLength cs
  simp only [heredocLength?, length, List.drop_left] at closed
  split at closed
  · cases closed
  · rename_i named
    obtain ⟨m, measured, rfl⟩ :=
      Option.map_eq_some_iff.mp (Option.some.inj closed)
    obtain ⟨body, rest, same, rfl⟩ := exists_of_heredocBodyLength measured
    have letters : ∀ c ∈ labelled.takeWhile isNameChar, isNameChar c = true :=
      fun c inside => List.mem_takeWhile_imp inside
    have start : labelled =
        labelled.takeWhile isNameChar ++ labelled.dropWhile isNameChar :=
      List.takeWhile_append_dropWhile.symm
    generalize labelled.takeWhile isNameChar = label at *
    generalize labelled.dropWhile isNameChar = opened at *
    subst start
    have within : lineLength opened ≤ opened.length := runLength_le _ _
    rw [List.drop_left, Nat.add_assoc, ← List.drop_drop, List.drop_left,
      ← List.drop_drop, List.drop_left] at same
    refine ⟨lead, label, opened.take (lineLength opened) ++ body, rest, ?_, ?_,
      leads, by simpa using named, letters⟩
    · calc lead ++ (label ++ opened)
        _ = lead ++ (label ++ (opened.take (lineLength opened) ++
              (body ++ label ++ rest))) := by
            rw [← same, List.take_append_drop]
        _ = lead ++ label ++ (opened.take (lineLength opened) ++ body) ++
              label ++ rest := by
            simp only [List.append_assoc]
    · simp only [List.drop_left, List.length_append, List.length_take,
        Nat.min_eq_left within]
      omega

/-- A name consists of name characters and backslashes. -/
theorem exists_of_nameLength (cs : List Char) :
    ∃ name rest, cs = name ++ rest ∧ nameLength cs = name.length ∧
      ∀ c ∈ name, isNameChar c = true ∨ c = '\\' := by
  fun_induction nameLength cs with
  | case1 => exact ⟨[], [], rfl, rfl, nofun⟩
  | case2 c named =>
      exact ⟨[c], [], rfl, rfl, by simpa using Or.inl named⟩
  | case3 c _ => exact ⟨[], [c], rfl, rfl, nofun⟩
  | case4 c d cs goesOn ih =>
      obtain ⟨name, rest, same, length, letters⟩ := ih
      refine ⟨c :: name, rest, by rw [same, List.cons_append],
        by rw [length, List.length_cons], List.forall_mem_cons.mpr
          ⟨?_, letters⟩⟩
      rw [Bool.or_eq_true, Bool.and_eq_true, beq_iff_eq] at goesOn
      exact goesOn.imp id And.left
  | case5 c d cs _ => exact ⟨[], c :: d :: cs, rfl, rfl, nofun⟩

/-! ## Lengths along the text -/

theorem runLength_cons
    {p : Char → Bool} {c : Char} (passes : p c = true) (cs : List Char) :
    runLength p (c :: cs) = runLength p cs + 1 := by
  rw [runLength, List.takeWhile_cons_of_pos passes, List.length_cons]
  rfl

theorem commentLength_cons
    {c : Char} {cs : List Char} (open' : ¬ commentEnd <+: c :: cs) :
    commentLength (c :: cs) = (commentLength cs).map (· + 1) := by
  rw [commentLength]
  rintro after rfl rfl
  exact open' ⟨after, rfl⟩

theorem quotedLength_cons
    {quote c : Char} {cs : List Char} (plain : c ≠ '\\') :
    quotedLength quote (c :: cs) =
      if c = quote then some 1 else (quotedLength quote cs).map (· + 1) := by
  rw [quotedLength]
  · exact fun backslash => absurd backslash plain
  · exact fun _ _ backslash => absurd backslash plain

theorem heredocBodyLength_cons (label : List Char) (c : Char) (cs : List Char) :
    heredocBodyLength label (c :: cs) =
      if closesHeredoc label (cs.drop (runLength isIndent cs)) then
        some (1 + runLength isIndent cs + label.length)
      else
        (heredocBodyLength label ((cs.drop (runLength isIndent cs)).drop
            (lineLength (cs.drop (runLength isIndent cs))))).map
          (1 + runLength isIndent cs +
            lineLength (cs.drop (runLength isIndent cs)) + ·) := by
  rw [heredocBodyLength]

/-- Whether a character belongs to a name is seen from the one behind it. -/
theorem nameLength_cons (c : Char) (cs : List Char) :
    nameLength (c :: cs) =
      if isNameChar c || (c == '\\' &&
          cs.head?.any fun d => isNameStart d || d == '\x7b') then
        nameLength cs + 1
      else 0 := by
  cases cs with
  | nil => simp [nameLength]
  | cons d cs => rfl

/-! ## Kinds of lexemes -/

/-- A quotation mark of a quoted text. -/
def IsQuote (c : Char) : Prop := c = '\'' ∨ c = '"' ∨ c = '`'

/-- The lexeme that starts with `c`: what its shape says about it and about the
text that follows, and how many characters of that belong to it. -/
inductive Measured (c : Char) (cs : List Char) : Shape → Nat → Prop
  | openTag (opens : openTag <+: c :: cs) : Measured c cs .openTag 4
  | inlineText {after : List Char} (closes : c = '?') (text : cs = '>' :: after) :
      Measured c cs .inlineText (1 + inlineLength after)
  | blank (blank : isBlank c = true) : Measured c cs .blank 0
  | slashes (mark : c = '/') (second : cs.head? = some '/') :
      Measured c cs .lineComment (lineLength cs)
  | hash (mark : c = '#') (noAttribute : cs.head? ≠ some '[') :
      Measured c cs .lineComment (lineLength cs)
  | attributeOpen (mark : c = '#') (bracket : cs.head? = some '[') :
      Measured c cs .attributeOpen 1
  | comment {after : List Char} {n : Nat}
      (mark : c = '/') (text : cs = '*' :: after)
      (length : commentLength after = some n) :
      Measured c cs
        (if isDocComment n after then .docComment else .blockComment) (n + 1)
  | quoted {n : Nat}
      (mark : IsQuote c) (length : quotedLength c cs = some n) :
      Measured c cs .quoted n
  | heredoc {after : List Char} {n : Nat}
      (mark : c = '<') (text : cs = '<' :: '<' :: after)
      (length : heredocLength? after = some (some n)) :
      Measured c cs .heredoc (n + 2)
  | dollar (mark : c = '$') (named : cs.head?.any isNameStart = true) :
      Measured c cs .variable (runLength isNameChar cs)
  | ellipsis {after : List Char} (mark : c = '.') (text : cs = '.' :: '.' :: after) :
      Measured c cs .ellipsis 2
  | number
      (starts : c.isDigit = true ∨ c = '.' ∧ cs.head?.any Char.isDigit = true) :
      Measured c cs .number (runLength isNumberChar cs)
  | name
      (starts : isNameStart c = true ∨
        c = '\\' ∧ cs.head?.any isNameStart = true) :
      Measured c cs .name (nameLength cs)
  | punct (visible : isBlank c = false) : Measured c cs .punct 0

theorem measured_of_measure
    {c : Char} {cs : List Char} {shape : Shape} {n : Nat}
    (done : measure c cs = .ok (shape, n)) : Measured c cs shape n := by
  unfold measure at done
  rcases ite_eq_iff.mp done with ⟨opens, same⟩ | ⟨-, done⟩
  · cases same
    exact .openTag (List.isPrefixOf_iff_prefix.mp opens)
  rcases ite_eq_iff.mp done with ⟨⟨mark, second⟩, same⟩ | ⟨-, done⟩
  · cases same
    obtain ⟨after, rfl⟩ := List.head?_eq_some_iff.mp second
    exact .inlineText mark rfl
  rcases ite_eq_iff.mp done with ⟨blank, same⟩ | ⟨notBlank, done⟩
  · cases same
    exact .blank blank
  rcases ite_eq_iff.mp done with ⟨⟨mark, second⟩, same⟩ | ⟨-, done⟩
  · cases same
    exact .slashes mark second
  rcases ite_eq_iff.mp done with ⟨mark, same⟩ | ⟨-, done⟩
  · rcases ite_eq_iff.mp same with ⟨bracket, same⟩ | ⟨noAttribute, same⟩
    · cases same
      exact .attributeOpen mark bracket
    · cases same
      exact .hash mark noAttribute
  rcases ite_eq_iff.mp done with ⟨⟨mark, second⟩, same⟩ | ⟨-, done⟩
  · obtain ⟨after, rfl⟩ := List.head?_eq_some_iff.mp second
    split at same
    · cases same
    · rename_i n length
      cases same
      exact .comment mark rfl length
  rcases ite_eq_iff.mp done with ⟨mark, same⟩ | ⟨-, done⟩
  · split at same
    · cases same
    · rename_i n length
      cases same
      exact .quoted mark length
  rcases ite_eq_iff.mp done with ⟨⟨mark, arrows⟩, same⟩ | ⟨-, done⟩
  · obtain ⟨after, rfl⟩ := List.isPrefixOf_iff_prefix.mp arrows
    split at same
    · cases same
      exact .punct (Bool.eq_false_iff.mpr notBlank)
    · cases same
    · rename_i n length
      cases same
      exact .heredoc mark rfl length
  rcases ite_eq_iff.mp done with ⟨⟨mark, named⟩, same⟩ | ⟨-, done⟩
  · cases same
    exact .dollar mark named
  rcases ite_eq_iff.mp done with ⟨⟨mark, dots⟩, same⟩ | ⟨-, done⟩
  · cases same
    obtain ⟨after, rfl⟩ := List.isPrefixOf_iff_prefix.mp dots
    exact .ellipsis mark rfl
  rcases ite_eq_iff.mp done with ⟨starts, same⟩ | ⟨-, done⟩
  · cases same
    exact .number starts
  rcases ite_eq_iff.mp done with ⟨starts, same⟩ | ⟨-, same⟩
  · cases same
    exact .name starts
  · cases same
    exact .punct (Bool.eq_false_iff.mpr notBlank)

/-- A blank is a lexeme of a single character. -/
theorem Measured.of_blank
    {c : Char} {cs : List Char} {n : Nat} (measured : Measured c cs .blank n) :
    n = 0 ∧ isBlank c = true := by
  generalize shaped : Shape.blank = shape at measured
  cases measured with
  | blank blank => exact ⟨rfl, blank⟩
  | comment => split at shaped <;> cases shaped
  | _ => cases shaped

theorem letters_of_name
    {c : Char} {cs : List Char}
    (starts : isNameStart c = true ∨
      c = '\\' ∧ cs.head?.any isNameStart = true) :
    ∀ d ∈ c :: cs.take (nameLength cs), isNameChar d = true ∨ d = '\\' := by
  obtain ⟨name, rest, text, length, letters⟩ := exists_of_nameLength cs
  rw [length, text, List.take_left]
  refine List.forall_mem_cons.mpr ⟨?_, letters⟩
  exact starts.imp (fun begins => by simp [isNameChar, begins]) And.left

/-- A name consists of name characters and backslashes. -/
theorem Measured.letters_of_name
    {c : Char} {cs : List Char} {n : Nat} (measured : Measured c cs .name n) :
    ∀ d ∈ c :: cs.take n, isNameChar d = true ∨ d = '\\' := by
  generalize shaped : Shape.name = shape at measured
  cases measured with
  | name starts => exact Reading.letters_of_name starts
  | comment => split at shaped <;> cases shaped
  | _ => cases shaped

/-! ## Bounds -/

theorem le_length_of_append
    {cs start rest : List Char} {n : Nat}
    (text : cs = start ++ rest) (length : n = start.length) :
    n ≤ cs.length := by
  rw [text, length, List.length_append]
  exact Nat.le_add_right _ _

theorem inlineLength_le (cs : List Char) : inlineLength cs ≤ cs.length := by
  obtain ⟨body, rest, text, length, -⟩ := exists_of_inlineLength cs
  exact le_length_of_append text length

theorem commentLength_le
    {cs : List Char} {n : Nat} (closed : commentLength cs = some n) :
    n ≤ cs.length := by
  obtain ⟨body, rest, text, length, -⟩ := exists_of_commentLength closed
  refine le_length_of_append text ?_
  rw [length, List.length_append]
  rfl

theorem quotedLength_le
    {quote : Char} {cs : List Char} {n : Nat}
    (closed : quotedLength quote cs = some n) : n ≤ cs.length := by
  obtain ⟨body, rest, text, length, -⟩ := exists_of_quotedLength closed
  rw [length, text, List.length_append, List.length_cons]
  omega

theorem heredocLeadLength_le (cs : List Char) :
    heredocLeadLength cs ≤ cs.length := by
  obtain ⟨lead, rest, text, length, -⟩ := exists_of_heredocLeadLength cs
  exact le_length_of_append text length

theorem heredocLength?_le
    {cs : List Char} {n : Nat} (closed : heredocLength? cs = some (some n)) :
    n ≤ cs.length := by
  obtain ⟨lead, label, body, rest, text, length, -⟩ :=
    exists_of_heredocLength closed
  exact le_length_of_append text length

theorem nameLength_le (cs : List Char) : nameLength cs ≤ cs.length := by
  obtain ⟨name, rest, text, length, -⟩ := exists_of_nameLength cs
  exact le_length_of_append text length

/-- A lexeme does not reach beyond the end of the text. -/
theorem Measured.le_length
    {c : Char} {cs : List Char} {shape : Shape} {n : Nat}
    (measured : Measured c cs shape n) : n ≤ cs.length := by
  cases measured with
  | openTag opens => exact Nat.le_of_succ_le_succ opens.length_le
  | @inlineText after closes text =>
      rw [text, List.length_cons, Nat.add_comm]
      exact Nat.succ_le_succ (inlineLength_le after)
  | blank blank => exact Nat.zero_le _
  | slashes mark second => exact runLength_le _ cs
  | hash mark noAttribute => exact runLength_le _ cs
  | attributeOpen mark bracket =>
      obtain ⟨after, rfl⟩ := List.head?_eq_some_iff.mp bracket
      exact Nat.succ_le_succ (Nat.zero_le _)
  | comment mark text length =>
      rw [text]
      exact Nat.succ_le_succ (commentLength_le length)
  | quoted mark length => exact quotedLength_le length
  | heredoc mark text length =>
      rw [text]
      exact Nat.add_le_add_right (heredocLength?_le length) 2
  | dollar mark named => exact runLength_le _ cs
  | ellipsis mark text =>
      rw [text]
      exact Nat.le_add_left 2 _
  | number starts => exact runLength_le _ cs
  | name starts => exact nameLength_le cs
  | punct visible => exact Nat.zero_le _

end BusReference.Php.Lexeme.Reading

namespace BusReference.Php.Lexeme

/-! ## Lexemes of a text -/

variable {line : Nat} {cs : List Char} {lexemes : List Lexeme}

/-- The characters of the lexemes are those of the text. -/
theorem flatMap_text_of_readFrom (done : readFrom line cs = .ok lexemes) :
    lexemes.flatMap text = cs := by
  fun_induction readFrom line cs generalizing lexemes with
  | case1 =>
      cases done
      rfl
  | case2 => cases done
  | case3 => cases done
  | case4 line c cs shape n measured text others later =>
      rename_i ih
      cases done
      rw [List.flatMap_cons, ih later, List.cons_append, List.take_append_drop]

theorem exists_measure_of_mem (done : readFrom line cs = .ok lexemes) :
    ∀ x ∈ lexemes, ∃ c rest n,
      x.text = c :: rest.take n ∧ Reading.measure c rest = .ok (x.shape, n) := by
  fun_induction readFrom line cs generalizing lexemes with
  | case1 =>
      cases done
      exact nofun
  | case2 => cases done
  | case3 => cases done
  | case4 line c cs shape n measured text others later =>
      rename_i ih
      cases done
      exact List.forall_mem_cons.mpr ⟨⟨c, cs, n, rfl, measured⟩, ih later⟩

theorem exists_measured_of_mem (done : readFrom line cs = .ok lexemes) :
    ∀ x ∈ lexemes, ∃ c rest n,
      x.text = c :: rest.take n ∧ Reading.Measured c rest x.shape n := by
  intro x inside
  obtain ⟨c, rest, n, text, measured⟩ := exists_measure_of_mem done x inside
  exact ⟨c, rest, n, text, Reading.measured_of_measure measured⟩

end BusReference.Php.Lexeme
