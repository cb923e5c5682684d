import BusReference.DocComment
import BusReference.Proofs.Php.Lexeme.Measures
import BusReference.Proofs.Text.Removing

/-!
# What is dropped from doc comments

The summary of a doc comment is made of what is left without the noise: the
marks of the comment, the line breaks, and the tags.  Marks consist of slashes
and stars, and a tag goes on to the end of its line, so that noise ends before
any other character unless that character is on the line of a tag.  Where a text
is cut at such a character, the noise of both parts is dropped on its own.
-/

namespace BusReference.DocComment

open BusReference.Text.Pieces (prefix_append_cons_iff)
open BusReference.Text.WordCharacter (isWord)
open BusReference.Php.Lexeme.Reading
  (runLength runLength_le take_runLength runLength_cons)

/-! ## Runs of characters -/

section Runs

variable {p : Char → Bool} {cs : List Char}

/-- A run ends where it ends, whatever comes later. -/
theorem runLength_append_of_mem
    {stop : Char} (member : stop ∈ cs) (stops : p stop = false) (rest : List Char) :
    runLength p (cs ++ rest) = runLength p cs := by
  induction cs with
  | nil => cases member
  | cons c cs ih =>
      cases passes : p c with
      | false => simp [runLength, passes]
      | true =>
          rcases List.mem_cons.mp member with rfl | later
          · rw [stops] at passes
            cases passes
          · rw [List.cons_append, runLength_cons passes, runLength_cons passes,
              ih later]

theorem runLength_append_cons
    {t : Char} (stops : p t = false) (cs rest : List Char) :
    runLength p (cs ++ t :: rest) = runLength p cs := by
  induction cs with
  | nil => simp [runLength, stops]
  | cons c cs ih =>
      cases passes : p c with
      | false => simp [runLength, passes]
      | true =>
          rw [List.cons_append, runLength_cons passes, runLength_cons passes, ih]

theorem drop_runLength_append (p : Char → Bool) (cs rest : List Char) :
    (cs ++ rest).drop (runLength p cs) = cs.drop (runLength p cs) ++ rest :=
  List.drop_append_of_le_length (runLength_le p cs)

theorem runLength_eq_length (passes : ∀ c ∈ cs, p c = true) :
    runLength p cs = cs.length := by
  rw [runLength, List.takeWhile_eq_self_iff.mpr passes]

end Runs

/-! ## Tags -/

/-- A tag and what follows it, all on one line. -/
inductive IsTag : List Char → Prop
  | intro {c : Char} {rest : List Char}
      (word : isWord c = true) (line : '\n' ∉ rest) : IsTag ('@' :: c :: rest)

/-- The text ends on the line of a tag, after the tag. -/
def EndsInTag (cs : List Char) : Prop :=
  ∃ tag, IsTag tag ∧ tag <:+ cs

section Tags

variable {c t : Char} {cs rest : List Char}

theorem not_isWord_newline : isWord '\n' = false := by decide

theorem IsTag.newline_not_mem (tag : IsTag cs) : '\n' ∉ cs := by
  obtain @⟨c, rest, word, line⟩ := tag
  rw [List.mem_cons, List.mem_cons, not_or, not_or]
  refine ⟨by decide, ?_, line⟩
  rintro rfl
  rw [not_isWord_newline] at word
  cases word

theorem IsTag.append (tag : IsTag cs) (line : '\n' ∉ rest) : IsTag (cs ++ rest) := by
  obtain @⟨c, ds, word, first⟩ := tag
  have both : '\n' ∉ ds ++ rest := by
    rw [List.mem_append, not_or]
    exact ⟨first, line⟩
  exact .intro word both

theorem IsTag.ne_nil (tag : IsTag cs) : cs ≠ [] := by
  cases tag
  exact List.cons_ne_nil _ _

theorem EndsInTag.cons (ends : EndsInTag cs) (c : Char) : EndsInTag (c :: cs) := by
  obtain ⟨tag, isTag, suffix⟩ := ends
  exact ⟨tag, isTag, suffix.trans (List.suffix_cons c cs)⟩

theorem EndsInTag.of_suffix (ends : EndsInTag cs) (suffix : cs <:+ rest) :
    EndsInTag rest := by
  obtain ⟨tag, isTag, inside⟩ := ends
  exact ⟨tag, isTag, inside.trans suffix⟩

theorem not_endsInTag_nil : ¬ EndsInTag [] := by
  rintro ⟨tag, isTag, suffix⟩
  exact isTag.ne_nil (List.suffix_nil.mp suffix)

/-- Only the last line can end in a tag. -/
theorem endsInTag_append_newline_iff (before line : List Char) :
    EndsInTag (before ++ '\n' :: line) ↔ EndsInTag line := by
  constructor
  · rintro ⟨tag, isTag, suffix⟩
    refine ⟨tag, isTag, ?_⟩
    have last : '\n' :: line <:+ before ++ '\n' :: line := List.suffix_append _ _
    rcases List.suffix_or_suffix_of_suffix suffix last with inside | longer
    · rcases List.suffix_cons_iff.mp inside with rfl | inside
      · exact absurd List.mem_cons_self isTag.newline_not_mem
      · exact inside
    · exact absurd (longer.subset List.mem_cons_self) isTag.newline_not_mem
  · intro ends
    exact ends.of_suffix ((List.suffix_cons _ _).trans (List.suffix_append _ _))

/-- A text that ends in a tag can be cut before the first tag of the line. -/
theorem EndsInTag.exists_first (ends : EndsInTag cs) :
    ∃ before tag, cs = before ++ tag ∧ IsTag tag ∧ ¬ EndsInTag before := by
  obtain ⟨tag, isTag, before, rfl⟩ := ends
  induction size : before.length using Nat.strongRecOn generalizing before tag with
  | _ size ih =>
  subst size
  by_cases earlier : EndsInTag before
  · obtain ⟨first, isFirst, lead, rfl⟩ := earlier
    have filled := List.length_pos_iff.mpr isFirst.ne_nil
    have shorter : lead.length < (lead ++ first).length := by
      rw [List.length_append]
      omega
    rw [List.append_assoc]
    exact ih _ shorter _ (isFirst.append isTag.newline_not_mem) lead rfl
  · exact ⟨before, tag, rfl, isTag, earlier⟩

end Tags

/-! ## Noise at one place -/

/-- A character that ends the marks of a comment and words. -/
structure Separates (t : Char) : Prop where
  noWord : isWord t = false
  noSlash : t ≠ '/'
  noStar : t ≠ '*'

theorem separates_newline : Separates '\n' := by constructor <;> decide

theorem separates_return : Separates '\r' := by constructor <;> decide

theorem separates_at : Separates '@' := by constructor <;> decide

section Places

variable {c t : Char} {cs rest : List Char}

theorem noiseLength_slash (cs : List Char) :
    noiseLength '/' cs =
      if ['*', '*'] <+: cs.drop (runLength (· == '/') cs) then
        runLength (· == '/') cs + 3
      else 0 := by
  simp only [← List.isPrefixOf_iff_prefix]
  rfl

theorem noiseLength_star (cs : List Char) :
    noiseLength '*' cs =
      if (cs.drop (runLength (· == '*') cs)).head? = some '/' then
        runLength (· == '*') cs + 2
      else 1 := rfl

theorem noiseLength_at (cs : List Char) :
    noiseLength '@' cs =
      if runLength isWord cs = 0 then 0
      else 1 + runLength isWord cs +
        runLength (· != '\n') (cs.drop (runLength isWord cs)) := rfl

theorem noiseLength_newline (cs : List Char) : noiseLength '\n' cs = 1 := rfl

/-- Noise starts with a mark, a tag or a line break. -/
theorem noiseLength_of_ne
    (noSlash : c ≠ '/') (noStar : c ≠ '*') (noAt : c ≠ '@') (noBreak : c ≠ '\n')
    (cs : List Char) : noiseLength c cs = 0 := by
  rw [noiseLength, if_neg noSlash, if_neg noStar, if_neg noAt, if_neg noBreak]

theorem noiseLength_slash_append (separates : Separates t) (cs rest : List Char) :
    noiseLength '/' (cs ++ t :: rest) = noiseLength '/' cs := by
  have slashes : runLength (· == '/') (cs ++ t :: rest) = runLength (· == '/') cs := by
    apply runLength_append_cons
    exact beq_eq_false_iff_ne.mpr separates.noSlash
  have noStar : t ∉ ['*', '*'] := by
    simpa using separates.noStar
  simp only [noiseLength_slash, slashes, drop_runLength_append,
    prefix_append_cons_iff noStar]

theorem noiseLength_star_append (separates : Separates t) (cs rest : List Char) :
    noiseLength '*' (cs ++ t :: rest) = noiseLength '*' cs := by
  have stars : runLength (· == '*') (cs ++ t :: rest) = runLength (· == '*') cs := by
    apply runLength_append_cons
    exact beq_eq_false_iff_ne.mpr separates.noStar
  have first : ∀ ds : List Char,
      (ds ++ t :: rest).head? = some '/' ↔ ds.head? = some '/' := by
    intro ds
    cases ds with
    | nil => simpa using separates.noSlash
    | cons d ds => exact Iff.rfl
  simp only [noiseLength_star, stars, drop_runLength_append, first]

theorem newline_mem_of_not_endsInTag
    (apart : ¬ EndsInTag ('@' :: cs)) (word : runLength isWord cs ≠ 0) :
    '\n' ∈ cs.drop (runLength isWord cs) := by
  by_contra line
  apply apart
  cases cs with
  | nil => exact absurd rfl word
  | cons c cs =>
      have letter : isWord c = true := by
        by_contra other
        apply word
        simp [runLength, other]
      refine ⟨_, .intro letter ?_, List.suffix_rfl⟩
      intro member
      have inside : '\n' ∈ (c :: cs).take (runLength isWord (c :: cs)) ++
          (c :: cs).drop (runLength isWord (c :: cs)) := by
        rw [List.take_append_drop]
        exact List.mem_cons_of_mem c member
      rcases List.mem_append.mp inside with inWord | later
      · rw [take_runLength] at inWord
        have letters := List.mem_takeWhile_imp inWord
        rw [not_isWord_newline] at letters
        cases letters
      · exact line later

theorem noiseLength_at_append
    (separates : Separates t) (apart : t = '\n' ∨ ¬ EndsInTag ('@' :: cs))
    (rest : List Char) :
    noiseLength '@' (cs ++ t :: rest) = noiseLength '@' cs := by
  have word := runLength_append_cons separates.noWord cs rest
  rw [noiseLength_at, noiseLength_at, word, drop_runLength_append]
  split
  · rfl
  · rename_i tagged
    congr 1
    rcases apart with rfl | apart
    · exact runLength_append_cons (by decide) _ _
    · exact runLength_append_of_mem (newline_mem_of_not_endsInTag apart tagged)
        (by decide) _

/-- A separating character does not change the noise before it. -/
theorem noiseLength_append
    (separates : Separates t) (apart : t = '\n' ∨ ¬ EndsInTag (c :: cs))
    (rest : List Char) :
    noiseLength c (cs ++ t :: rest) = noiseLength c cs := by
  by_cases slash : c = '/'
  · subst slash
    exact noiseLength_slash_append separates cs rest
  by_cases star : c = '*'
  · subst star
    exact noiseLength_star_append separates cs rest
  by_cases at' : c = '@'
  · subst at'
    exact noiseLength_at_append separates apart rest
  by_cases line : c = '\n'
  · rw [line, noiseLength_newline, noiseLength_newline]
  · rw [noiseLength_of_ne slash star at' line, noiseLength_of_ne slash star at' line]

theorem noiseLength_le (c : Char) (cs : List Char) :
    noiseLength c cs ≤ cs.length + 1 := by
  rw [noiseLength]
  split
  · have within := runLength_le (· == '/') cs
    dsimp only
    split
    · rename_i stars
      have length := (List.isPrefixOf_iff_prefix.mp stars).length_le
      simp only [List.length_cons, List.length_nil, List.length_drop] at length
      omega
    · omega
  split
  · have within := runLength_le (· == '*') cs
    dsimp only
    split
    · rename_i slash
      obtain ⟨rest, left⟩ := List.head?_eq_some_iff.mp slash
      have length := congrArg List.length left
      rw [List.length_drop, List.length_cons] at length
      omega
    · omega
  split
  · have word := runLength_le isWord cs
    have line := runLength_le (· != '\n') (cs.drop (runLength isWord cs))
    rw [List.length_drop] at line
    dsimp only
    split <;> omega
  · split <;> omega

end Places

/-! ## The text without its noise -/

section Texts

variable {c t : Char} {cs rest : List Char}

theorem dropNoise_of_noiseLength_zero (visible : noiseLength c cs = 0) :
    dropNoise (c :: cs) = c :: dropNoise cs := by
  rw [dropNoise, visible]

theorem dropNoise_of_noiseLength_succ {n : Nat} (noise : noiseLength c cs = n + 1) :
    dropNoise (c :: cs) = dropNoise (cs.drop n) := by
  rw [dropNoise, noise]

theorem dropNoise_cons
    (noSlash : c ≠ '/') (noStar : c ≠ '*') (noAt : c ≠ '@') (noBreak : c ≠ '\n')
    (cs : List Char) : dropNoise (c :: cs) = c :: dropNoise cs :=
  dropNoise_of_noiseLength_zero (noiseLength_of_ne noSlash noStar noAt noBreak cs)

@[simp]
theorem dropNoise_newline (cs : List Char) : dropNoise ('\n' :: cs) = dropNoise cs :=
  dropNoise_of_noiseLength_succ (noiseLength_newline cs)

/-- Noise is dropped from both sides of a separating character on its own, unless
that character is on the line of a tag. -/
theorem dropNoise_append
    (separates : Separates t) (apart : t = '\n' ∨ ¬ EndsInTag cs)
    (rest : List Char) :
    dropNoise (cs ++ t :: rest) = dropNoise cs ++ dropNoise (t :: rest) := by
  fun_induction dropNoise cs with
  | case1 => rfl
  | case2 c cs visible ih =>
      have later : t = '\n' ∨ ¬ EndsInTag cs :=
        apart.imp_right fun apart ends => apart (ends.cons c)
      rw [← noiseLength_append separates apart rest] at visible
      rw [List.cons_append, dropNoise_of_noiseLength_zero visible, ih later,
        List.cons_append]
  | case3 c cs n noise ih =>
      have within : n ≤ cs.length := by
        have bound := noiseLength_le c cs
        omega
      have later : t = '\n' ∨ ¬ EndsInTag (cs.drop n) :=
        apart.imp_right fun apart ends =>
          apart (ends.of_suffix ((List.drop_suffix n cs).trans (List.suffix_cons c cs)))
      rw [← noiseLength_append separates apart rest] at noise
      rw [List.cons_append, dropNoise_of_noiseLength_succ noise,
        List.drop_append_of_le_length within, ih later]

/-- A line break separates the noise on both sides, and is noise itself. -/
theorem dropNoise_append_newline (cs rest : List Char) :
    dropNoise (cs ++ '\n' :: rest) = dropNoise cs ++ dropNoise rest := by
  rw [dropNoise_append separates_newline (.inl rfl), dropNoise_newline]

/-- A carriage return stays where no tag takes it. -/
theorem dropNoise_append_return (apart : ¬ EndsInTag cs) (rest : List Char) :
    dropNoise (cs ++ '\r' :: rest) = dropNoise cs ++ '\r' :: dropNoise rest := by
  rw [dropNoise_append separates_return (.inr apart),
    dropNoise_cons (by decide) (by decide) (by decide) (by decide)]

/-- A tag is noise as a whole. -/
theorem noiseLength_tag {c : Char} (word : isWord c = true) (line : '\n' ∉ cs) :
    noiseLength '@' (c :: cs) = (c :: cs).length + 1 := by
  have tagged : runLength isWord (c :: cs) ≠ 0 := by
    rw [runLength_cons word]
    exact Nat.succ_ne_zero _
  have within := runLength_le isWord (c :: cs)
  have toEnd : runLength (· != '\n') ((c :: cs).drop (runLength isWord (c :: cs))) =
      ((c :: cs).drop (runLength isWord (c :: cs))).length := by
    apply runLength_eq_length
    intro d member
    rw [bne_iff_ne]
    rintro rfl
    exact (IsTag.intro word line).newline_not_mem
      (List.mem_cons_of_mem _ (List.mem_of_mem_drop member))
  rw [noiseLength_at, if_neg tagged, toEnd, List.length_drop]
  omega

theorem dropNoise_append_tag {tag : List Char}
    (apart : ¬ EndsInTag cs) (isTag : IsTag tag) :
    dropNoise (cs ++ tag) = dropNoise cs := by
  obtain ⟨word, line⟩ := isTag
  rw [dropNoise_append separates_at (.inr apart),
    dropNoise_of_noiseLength_succ (noiseLength_tag word line), List.drop_length,
    dropNoise, List.append_nil]

/-- What follows a tag on its line is dropped with it. -/
theorem dropNoise_append_of_endsInTag
    (ends : EndsInTag cs) (line : '\n' ∉ rest) :
    dropNoise (cs ++ rest) = dropNoise cs := by
  obtain ⟨before, tag, rfl, isTag, apart⟩ := ends.exists_first
  rw [List.append_assoc, dropNoise_append_tag apart (isTag.append line),
    dropNoise_append_tag apart isTag]

/-- What is left stands in the text in this order. -/
theorem dropNoise_sublist (cs : List Char) : (dropNoise cs).Sublist cs := by
  fun_induction dropNoise cs with
  | case1 => exact List.Sublist.slnil
  | case2 c cs visible ih => exact ih.cons_cons c
  | case3 c cs n noise ih =>
      exact (ih.trans (List.drop_sublist n cs)).trans (List.sublist_cons_self c cs)

theorem newline_not_mem_dropNoise (cs : List Char) : '\n' ∉ dropNoise cs := by
  fun_induction dropNoise cs with
  | case1 => exact List.not_mem_nil
  | case2 c cs visible ih =>
      rw [List.mem_cons, not_or]
      refine ⟨?_, ih⟩
      rintro rfl
      rw [noiseLength_newline] at visible
      cases visible
  | case3 c cs n noise ih => exact ih

/-- A text without stars, tags and line breaks has no noise. -/
theorem dropNoise_eq_self
    (plain : ∀ c ∈ cs, c ≠ '*' ∧ c ≠ '@' ∧ c ≠ '\n') : dropNoise cs = cs := by
  induction cs with
  | nil => rw [dropNoise]
  | cons c cs ih =>
      obtain ⟨⟨noStar, noAt, noBreak⟩, later⟩ := List.forall_mem_cons.mp plain
      have visible : noiseLength c cs = 0 := by
        by_cases slash : c = '/'
        · subst slash
          rw [noiseLength_slash, if_neg]
          intro stars
          exact (later '*' (List.mem_of_mem_drop (stars.subset List.mem_cons_self))).1 rfl
        · exact noiseLength_of_ne slash noStar noAt noBreak cs
      rw [dropNoise_of_noiseLength_zero visible, ih later]

end Texts

end BusReference.DocComment
