import Mathlib.Data.List.Basic
import BusReference.Proofs.DocComment.Tags
import BusReference.Proofs.Definition.Reading

/-!
# Lines of `@return` tags

The type in a `@return` tag is the first word behind the keyword.  The blanks
before the word may be line feeds, so a keyword with nothing behind it on its line
takes a word of a later line, in the usual layout the star with which that line
starts.  This is the only way in which a type comes from another line than its
keyword.
-/

namespace BusReference

namespace DocComment

open BusReference.Text.Blank (isBlank)

/-- The keyword of a tag for what a method returns. -/
def returnKeyword : List Char := ['@', 'r', 'e', 't', 'u', 'r', 'n']

theorem toList_return : "@return".toList = returnKeyword := rfl

theorem returnTagAt?_eq_some_iff {type cs : List Char} :
    returnTagAt? cs = some type ↔
      ∃ blanks rest, Tagged returnKeyword blanks type rest cs ∧ rest ≠ [] := by
  constructor
  · intro found
    rw [returnTagAt?, toList_return] at found
    split at found
    · rename_i word c rest tagged
      cases found
      obtain ⟨blanks, tagged⟩ := tagged?_eq_some_iff.mp tagged
      exact ⟨blanks, c :: rest, tagged, List.cons_ne_nil c rest⟩
    · cases found
  · rintro ⟨blanks, rest, tagged, filled⟩
    obtain ⟨c, rest, rfl⟩ := List.exists_cons_of_ne_nil filled
    rw [returnTagAt?, toList_return, tagged?_eq_some_iff.mpr ⟨blanks, tagged⟩]

theorem returnTagAt?_eq_none
    {cs : List Char} (absent : ¬ returnKeyword <+: cs) :
    returnTagAt? cs = none := by
  rw [returnTagAt?, toList_return, tagged?_eq_none absent]

/-! ## Places -/

/-- A tag stands at one place of a text and its type at another one.  The text
goes on behind the type. -/
def TagAt (text : List Char) (place typePlace : Nat) (type : List Char) : Prop :=
  ∃ blanks rest, Tagged returnKeyword blanks type rest (text.drop place) ∧
    rest ≠ [] ∧ typePlace = place + returnKeyword.length + blanks.length

/-- No other tag stands before. -/
def FirstTag (text : List Char) (place typePlace : Nat) (type : List Char) : Prop :=
  TagAt text place typePlace type ∧
    ∀ earlier < place, ∀ otherPlace other, ¬ TagAt text earlier otherPlace other

/-- The line of a place, counted from one. -/
def lineOf (text : List Char) (place : Nat) : Nat :=
  1 + (text.take place).count '\n'

/-- Only blanks stand on the line behind the keyword. -/
def BareAt (text : List Char) (place : Nat) : Prop :=
  ∀ c ∈ (text.drop (place + returnKeyword.length)).takeWhile (· != '\n'),
    isBlank c = true

section Places

variable {text type : List Char} {place typePlace : Nat}

theorem exists_tagAt_iff :
    (∃ typePlace, TagAt text place typePlace type) ↔
      returnTagAt? (text.drop place) = some type := by
  rw [returnTagAt?_eq_some_iff]
  constructor
  · rintro ⟨-, blanks, rest, tagged, filled, -⟩
    exact ⟨blanks, rest, tagged, filled⟩
  · rintro ⟨blanks, rest, tagged, filled⟩
    exact ⟨_, blanks, rest, tagged, filled, rfl⟩

theorem returnTagAt?_eq_none_iff :
    returnTagAt? (text.drop place) = none ↔
      ∀ typePlace type, ¬ TagAt text place typePlace type := by
  constructor
  · intro missing typePlace type tag
    have found := exists_tagAt_iff.mp ⟨typePlace, tag⟩
    rw [missing] at found
    cases found
  · intro missing
    cases found : returnTagAt? (text.drop place) with
    | none => rfl
    | some type =>
        obtain ⟨typePlace, tag⟩ := exists_tagAt_iff.mpr found
        exact absurd tag (missing typePlace type)

theorem firstAt_returnTagAt?_eq_some_iff :
    firstAt returnTagAt? text = some type ↔
      ∃ place typePlace, FirstTag text place typePlace type := by
  rw [firstAt_eq_some_iff]
  constructor
  · rintro ⟨place, found, earlier⟩
    obtain ⟨typePlace, tag⟩ := exists_tagAt_iff.mpr found
    exact ⟨place, typePlace, tag, fun n before =>
      returnTagAt?_eq_none_iff.mp (earlier n before)⟩
  · rintro ⟨place, typePlace, tag, earlier⟩
    exact ⟨place, exists_tagAt_iff.mp ⟨typePlace, tag⟩, fun n before =>
      returnTagAt?_eq_none_iff.mpr (earlier n before)⟩

theorem FirstTag.place_eq
    {otherPlace otherTypePlace : Nat} {other : List Char}
    (first : FirstTag text place typePlace type)
    (again : FirstTag text otherPlace otherTypePlace other) :
    place = otherPlace := by
  rcases Nat.lt_trichotomy place otherPlace with before | same | behind
  · exact absurd first.1 (again.2 place before _ _)
  · exact same
  · exact absurd again.1 (first.2 otherPlace behind _ _)

theorem takeWhile_line_append
    {line : List Char} (unbroken : '\n' ∉ line) (rest : List Char) :
    (line ++ rest).takeWhile (· != '\n') = line ++ rest.takeWhile (· != '\n') := by
  apply List.takeWhile_append_of_pos
  intro c inside
  rw [bne_iff_ne]
  rintro rfl
  exact unbroken inside

/-- The blanks between the keyword and the type decide about their lines. -/
theorem TagAt.line_eq_iff (tag : TagAt text place typePlace type) :
    lineOf text typePlace = lineOf text place ↔ ¬ BareAt text place := by
  obtain ⟨blanks, rest, tagged, -, rfl⟩ := tag
  have behind : text.drop (place + returnKeyword.length) =
      blanks ++ (type ++ rest) := by
    rw [← List.drop_drop, tagged.text, List.drop_left]
  have taken : text.take (place + returnKeyword.length + blanks.length) =
      text.take place ++ (returnKeyword ++ blanks) := by
    rw [Nat.add_assoc, List.take_add, tagged.text, ← List.append_assoc,
      ← List.length_append, List.take_left]
  have noBreak : returnKeyword.count '\n' = 0 := by decide
  have sameLine : lineOf text (place + returnKeyword.length + blanks.length) =
      lineOf text place ↔ '\n' ∉ blanks := by
    rw [lineOf, lineOf, taken, List.count_append, List.count_append, noBreak,
      ← List.count_eq_zero]
    omega
  rw [sameLine, not_iff_not, BareAt, behind]
  constructor
  · intro inside
    obtain ⟨line, later, rfl, unbroken⟩ := List.eq_append_cons_of_mem inside
    rw [List.append_assoc, takeWhile_line_append unbroken, List.cons_append,
      List.takeWhile_cons_of_neg (by decide), List.append_nil]
    exact fun c inside => tagged.blank c (List.mem_append_left _ inside)
  · intro bare
    by_contra unbroken
    obtain ⟨c, others, rfl⟩ := List.exists_cons_of_ne_nil tagged.filled
    have solid := tagged.solid c List.mem_cons_self
    have visible : (c != '\n') = true := by
      rw [bne_iff_ne]
      rintro rfl
      cases solid
    have reached : c ∈ (blanks ++ (c :: others ++ rest)).takeWhile (· != '\n') := by
      rw [takeWhile_line_append unbroken, List.cons_append,
        List.takeWhile_cons_of_pos (p := (· != '\n')) visible]
      exact List.mem_append_right _ List.mem_cons_self
    rw [bare c reached] at solid
    cases solid

end Places

/-! ## Types and their lines -/

section Documented

variable {doc : String}

theorem returnTag?_eq_some_iff {type : String} :
    returnTag? doc = some type ↔
      ∃ place typePlace,
        FirstTag doc.toList place typePlace type.toList := by
  rw [← firstAt_returnTagAt?_eq_some_iff, returnTag?, Option.map_eq_some_iff]
  constructor
  · rintro ⟨found, first, rfl⟩
    rw [String.toList_ofList]
    exact first
  · exact fun first => ⟨type.toList, first, String.ofList_toList⟩

theorem returnTag?_eq_none_iff :
    returnTag? doc = none ↔
      ∀ place typePlace type, ¬ TagAt doc.toList place typePlace type := by
  rw [returnTag?, Option.map_eq_none_iff, firstAt_eq_none_iff]
  exact forall_congr' fun place => returnTagAt?_eq_none_iff

/-- The type is read from a tag on whose line it stands. -/
def IsOnTagLine (doc type : String) : Prop :=
  ∃ place typePlace, FirstTag doc.toList place typePlace type.toList ∧
    lineOf doc.toList typePlace = lineOf doc.toList place

/-- The first tag that is read has nothing behind its keyword on its line. -/
def HasBareTag (doc : String) : Prop :=
  ∃ place typePlace type, FirstTag doc.toList place typePlace type ∧
    BareAt doc.toList place

theorem isOnTagLine_iff_not_hasBareTag {type : String}
    (found : returnTag? doc = some type) :
    IsOnTagLine doc type ↔ ¬ HasBareTag doc := by
  constructor
  · rintro ⟨place, typePlace, first, sameLine⟩ ⟨other, otherTypePlace, word,
      again, bare⟩
    obtain rfl := first.place_eq again
    exact first.1.line_eq_iff.mp sameLine bare
  · intro whole
    obtain ⟨place, typePlace, first⟩ := returnTag?_eq_some_iff.mp found
    refine ⟨place, typePlace, first, first.1.line_eq_iff.mpr fun bare => ?_⟩
    exact whole ⟨place, typePlace, type.toList, first, bare⟩

/-- The first keyword of the text is the last on its line, and the given word
follows on a later one. -/
inductive BareBefore (word : List Char) : List Char → Prop
  | intro {before gap indent after : List Char} {c d : Char}
      (free : ¬ returnKeyword <:+: before) (apart : c ∉ returnKeyword)
      (gapBlank : ∀ e ∈ gap, isBlank e = true)
      (indentBlank : ∀ e ∈ indent, isBlank e = true)
      (filled : word ≠ []) (solid : ∀ e ∈ word, isBlank e = false)
      (ends : isBlank d = true) :
      BareBefore word (before ++ c ::
        (returnKeyword ++ (gap ++ '\n' :: indent ++ (word ++ d :: after))))

theorem BareBefore.returnTag?_eq
    {word : List Char} (bare : BareBefore word doc.toList) :
    returnTag? doc = some (String.ofList word) := by
  generalize text : doc.toList = whole at bare
  obtain ⟨free, apart, gapBlank, indentBlank, filled, solid, ends⟩ := bare
  rename_i before gap indent after c d
  have blank : ∀ e ∈ gap ++ '\n' :: indent, isBlank e = true := by
    intro e inside
    rcases List.mem_append.mp inside with early | late
    · exact gapBlank e early
    · rcases List.mem_cons.mp late with rfl | late
      · rfl
      · exact indentBlank e late
  have tagged : Tagged returnKeyword (gap ++ '\n' :: indent) word (d :: after)
      (returnKeyword ++ (gap ++ '\n' :: indent ++ (word ++ d :: after))) :=
    { text := rfl
      apart := by simp
      blank := blank
      filled := filled
      solid := solid
      stops := by rintro _ ⟨⟩; exact ends }
  have here := returnTagAt?_eq_some_iff.mpr
    ⟨_, d :: after, tagged, List.cons_ne_nil d after⟩
  have found : firstAt returnTagAt? doc.toList = some word := by
    rw [text, firstAt_append_cons (fun _ => returnTagAt?_eq_none)
      (List.cons_ne_nil _ _) free apart]
    exact firstAt_eq_some_iff.mpr ⟨0, here, nofun⟩
  rw [returnTag?, found, Option.map_some]

end Documented

end DocComment

namespace Definition

open BusReference.Php
open DocComment

/-- What holds of the type that a doc comment gives in a `@return` tag. -/
structure ReturnTagLines (doc : String) : Prop where
  /-- It is the type of the first tag. -/
  read_iff : ∀ type, returnTag? doc = some type ↔
    ∃ place typePlace, FirstTag doc.toList place typePlace type.toList
  missing_iff : returnTag? doc = none ↔
    ∀ place typePlace type, ¬ TagAt doc.toList place typePlace type
  /-- It stands on the line of its tag exactly if something other than blanks
  stands there behind the keyword. -/
  sameLine_iff : (∀ type, returnTag? doc = some type → IsOnTagLine doc type) ↔
    ¬ HasBareTag doc
  /-- If nothing does, it is the next word of the text. -/
  bare : ∀ word, BareBefore word doc.toList →
    returnTag? doc = some (String.ofList word)
  /-- In the usual layout that is the star of the next line, and a handler is
  documented to return it. -/
  star : BareBefore ['*'] doc.toList → ∀ index handler declaring method,
    handleOf index handler = some (declaring, method) → method.doc = some doc →
    returnTypeOf index handler = .ok (qualify [handler, declaring] "*")

theorem returnTagLines (doc : String) : ReturnTagLines doc where
  read_iff _ := returnTag?_eq_some_iff
  missing_iff := returnTag?_eq_none_iff
  sameLine_iff := by
    constructor
    · rintro onLine ⟨place, typePlace, type, first, bare⟩
      have found : returnTag? doc = some (String.ofList type) := by
        rw [returnTag?_eq_some_iff, String.toList_ofList]
        exact ⟨place, typePlace, first⟩
      exact (isOnTagLine_iff_not_hasBareTag found).mp (onLine _ found)
        ⟨place, typePlace, type, first, bare⟩
    · exact fun whole type found =>
        (isOnTagLine_iff_not_hasBareTag found).mpr whole
  bare _ taken := taken.returnTag?_eq
  star := by
    intro taken index handler declaring method handles documented
    have tagged : method.doc.bind returnTag? = some "*" := by
      rw [documented]
      exact taken.returnTag?_eq
    have noArray : splitArray "*" = ("*", false) := rfl
    rw [returnTypeOf_of_tag handles tagged, qualifyTag, noArray]

/-! ## A comment with a bare tag -/

/-- The type is missing, or was written on the next line. -/
def bareDoc : String := "/**\n * @return\n * Foo\n */"

theorem bareBefore_bareDoc : BareBefore ['*'] bareDoc.toList := by
  show BareBefore ['*'] ("/**\n *".toList ++ ' ' ::
    (returnKeyword ++ ([] ++ '\n' :: [' '] ++ (['*'] ++ ' ' :: "Foo\n */".toList))))
  exact .intro (by decide) (by decide) (List.forall_mem_nil _)
    (List.forall_mem_singleton.mpr rfl) (List.cons_ne_nil _ _)
    (List.forall_mem_singleton.mpr rfl) rfl

theorem hasBareTag_bareDoc : HasBareTag bareDoc := by
  have tag : TagAt bareDoc.toList 7 16 ['*'] :=
    ⟨['\n', ' '], " Foo\n */".toList,
      { text := rfl
        apart := List.cons_ne_nil _ _
        blank := List.forall_iff_forall_mem.mp ⟨rfl, rfl⟩
        filled := List.cons_ne_nil _ _
        solid := List.forall_mem_singleton.mpr rfl
        stops := by rintro _ ⟨⟩; rfl },
      List.cons_ne_nil _ _, rfl⟩
  have earlier : ∀ n < 7, returnTagAt? (bareDoc.toList.drop n) = none := by
    decide
  have bare : BareAt bareDoc.toList 7 := List.forall_mem_nil _
  exact ⟨7, 16, ['*'],
    ⟨tag, fun n before => returnTagAt?_eq_none_iff.mp (earlier n before)⟩, bare⟩

def bareHandle : Method where
  name := handleMethod
  doc := some bareDoc
  returnType := none

def bareSource : String :=
  "<?php namespace A; class H\x7b" ++ bareDoc ++ "function handle()\x7b\x7d\x7d"

/-- A handler whose method has the comment and declares no type. -/
def bareHandler : Declaration :=
  { Declaration.named "A\\H" .classType with
    methods := [bareHandle]
    source := some bareSource }

/-- The star of the next line is taken for the type. -/
theorem returnTag?_bareDoc :
    (¬ ∀ doc type, returnTag? doc = some type → IsOnTagLine doc type) ∧
      returnTag? bareDoc = some "*" ∧
      returnTypeOf ⟨[bareHandler]⟩ bareHandler = .ok "*" := by
  have found : returnTag? bareDoc = some "*" := bareBefore_bareDoc.returnTag?_eq
  have same : Text.Pieces.sameLetters handleMethod handleMethod = true :=
    beq_self_eq_true _
  have handles : handleOf ⟨[bareHandler]⟩ bareHandler =
      some (bareHandler, bareHandle) :=
    handleOf_of_bare rfl rfl
      (by simp [bareHandler, Declaration.method?, bareHandle, same])
  have noArray : splitArray "*" = ("*", false) := rfl
  have missing : DocComment.import? bareSource "*" = none := by
    decide +kernel
  refine ⟨fun onLine => ?_, found, ?_⟩
  · exact (isOnTagLine_iff_not_hasBareTag found).mp (onLine _ _ found)
      hasBareTag_bareDoc
  · rw [returnTypeOf_of_tag handles found, qualifyTag, noArray]
    dsimp only
    rw [qualify_of_same_source rfl rfl, missing, Option.getD_none]

end Definition

end BusReference
