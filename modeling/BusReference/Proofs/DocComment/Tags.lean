import BusReference.Proofs.DocComment.Imports
import BusReference.Proofs.Text.Removing

/-!
# Words behind tags

A tag is read where its text stands: a keyword, blanks and a word.  Where the
keyword does not stand, nothing is read, so the search goes past all text without
it, up to a character that is no part of a keyword.  A word is as long as it can
be, and it is the same word whatever blank follows.
-/

namespace BusReference.DocComment

open BusReference.Text.Blank (isBlank)
open BusReference.Text.Pieces (prefix_append_cons_iff)

/-! ## Words -/

theorem takeWhile_solid_eq_iff {cs word : List Char} :
    cs.takeWhile (!isBlank ·) = word ↔
      ∃ rest, cs = word ++ rest ∧ (∀ c ∈ word, isBlank c = false) ∧
        ∀ c ∈ rest.head?, isBlank c = true := by
  constructor
  · rintro rfl
    refine ⟨cs.dropWhile (!isBlank ·), List.takeWhile_append_dropWhile.symm,
      fun c inside => ?_, fun c first => ?_⟩
    · simpa using List.mem_takeWhile_imp inside
    · have stops := List.head?_dropWhile_not (!isBlank ·) cs
      rw [Option.mem_def.mp first] at stops
      simpa using stops
  · rintro ⟨rest, rfl, solid, stops⟩
    rw [List.takeWhile_append_of_pos (by simpa using solid)]
    cases rest with
    | nil => exact List.append_nil _
    | cons c rest =>
        rw [List.takeWhile_cons_of_neg (by simpa using stops c rfl),
          List.append_nil]

theorem word?_eq_some_iff {cs word rest : List Char} :
    word? cs = some (word, rest) ↔
      cs = word ++ rest ∧ word ≠ [] ∧ (∀ c ∈ word, isBlank c = false) ∧
        ∀ c ∈ rest.head?, isBlank c = true := by
  rw [word?]
  constructor
  · intro found
    obtain ⟨after, text, solid, stops⟩ := takeWhile_solid_eq_iff.mp
      (rfl : cs.takeWhile (!isBlank ·) = cs.takeWhile (!isBlank ·))
    generalize cs.takeWhile (!isBlank ·) = first at *
    subst text
    split at found
    · cases found
    · rename_i filled
      rw [List.drop_left] at found
      cases found
      exact ⟨rfl, by simpa using filled, solid, stops⟩
  · rintro ⟨text, filled, solid, stops⟩
    have first := takeWhile_solid_eq_iff.mpr ⟨rest, text, solid, stops⟩
    rw [first, if_neg (by simpa using filled), text, List.drop_left]

/-- Two words before blanks are the same if the texts are. -/
theorem word_eq_of_append_cons
    {word other rest later : List Char} {c d : Char}
    (solid : ∀ e ∈ word, isBlank e = false) (blank : isBlank c = true)
    (otherSolid : ∀ e ∈ other, isBlank e = false) (otherBlank : isBlank d = true)
    (text : word ++ c :: rest = other ++ d :: later) : word = other := by
  have first : (word ++ c :: rest).takeWhile (!isBlank ·) = word :=
    takeWhile_solid_eq_iff.mpr ⟨c :: rest, rfl, solid, by rintro _ ⟨⟩; exact blank⟩
  rw [← first]
  exact takeWhile_solid_eq_iff.mpr
    ⟨d :: later, text, otherSolid, by rintro _ ⟨⟩; exact otherBlank⟩

/-! ## Tags -/

/-- A tag stands at the start of the text: its keyword, blanks, a whole word, and
what follows the word. -/
structure Tagged (tag blanks word rest cs : List Char) : Prop where
  text : cs = tag ++ (blanks ++ (word ++ rest))
  apart : blanks ≠ []
  blank : ∀ c ∈ blanks, isBlank c = true
  filled : word ≠ []
  solid : ∀ c ∈ word, isBlank c = false
  stops : ∀ c ∈ rest.head?, isBlank c = true

variable {tag cs : List Char}

theorem tagged?_eq_some_iff {word rest : List Char} :
    tagged? tag cs = some (word, rest) ↔
      ∃ blanks, Tagged tag blanks word rest cs := by
  constructor
  · intro found
    rw [tagged?] at found
    split at found
    · cases found
    · rename_i behind keyword
      split at found
      · cases found
      · rename_i there separated
        obtain ⟨blanks, apart, rfl, blank, -⟩ :=
          afterBlanks?_eq_some_iff.mp separated
        obtain ⟨rfl, filled, solid, stops⟩ := word?_eq_some_iff.mp found
        exact ⟨blanks, after?_eq_some_iff.mp keyword, apart, blank, filled,
          solid, stops⟩
  · rintro ⟨blanks, rfl, apart, blank, filled, solid, stops⟩
    have start : ∀ c ∈ (word ++ rest).head?, isBlank c = false := by
      obtain ⟨c, others, rfl⟩ := List.exists_cons_of_ne_nil filled
      rintro d ⟨⟩
      exact solid c List.mem_cons_self
    rw [tagged?, after?_eq_some_iff.mpr rfl]
    dsimp only
    rw [afterBlanks?_eq_some_iff.mpr ⟨blanks, apart, rfl, blank, start⟩]
    exact word?_eq_some_iff.mpr ⟨rfl, filled, solid, stops⟩

theorem tagged?_eq_none (absent : ¬ tag <+: cs) : tagged? tag cs = none := by
  cases found : tagged? tag cs with
  | none => rfl
  | some pair =>
      obtain ⟨blanks, tagged⟩ := tagged?_eq_some_iff.mp found
      exact absurd ⟨_, tagged.text.symm⟩ absent

section Search

variable {α : Type} {read : List Char → Option α}

/-- A reading that needs a keyword goes past all characters with which the keyword
does not start. -/
theorem firstAt_append_of_not_mem
    (needs : ∀ cs, ¬ tag <+: cs → read cs = none)
    {k : Char} (first : tag.head? = some k) (absent : k ∉ cs)
    (rest : List Char) :
    firstAt read (cs ++ rest) = firstAt read rest := by
  obtain ⟨keyword, rfl⟩ := List.head?_eq_some_iff.mp first
  induction cs with
  | nil => rfl
  | cons c cs ih =>
      rw [List.mem_cons, not_or] at absent
      have nothing : read (c :: (cs ++ rest)) = none := by
        apply needs
        rw [List.cons_prefix_cons]
        exact fun starts => absent.1 starts.1
      rw [List.cons_append, firstAt, nothing]
      exact ih absent.2

/-- It goes past a text without the keyword, and past the character behind the
text if that is no part of the keyword. -/
theorem firstAt_append_cons
    (needs : ∀ cs, ¬ tag <+: cs → read cs = none) (keyword : tag ≠ [])
    {line : List Char} {c : Char} (free : ¬ tag <:+: line) (apart : c ∉ tag)
    (rest : List Char) :
    firstAt read (line ++ c :: rest) = firstAt read rest := by
  induction line with
  | nil =>
      have absent : ¬ tag <+: [] ++ c :: rest := by
        rw [prefix_append_cons_iff apart, List.prefix_nil]
        exact keyword
      have nothing := needs _ absent
      rw [List.nil_append] at nothing ⊢
      rw [firstAt, nothing]
  | cons d line ih =>
      rw [List.infix_cons_iff, not_or] at free
      have absent : ¬ tag <+: d :: line ++ c :: rest := by
        rw [prefix_append_cons_iff apart]
        exact free.1
      have nothing := needs _ absent
      rw [List.cons_append] at nothing ⊢
      rw [firstAt, nothing]
      exact ih free.2

end Search

end BusReference.DocComment
