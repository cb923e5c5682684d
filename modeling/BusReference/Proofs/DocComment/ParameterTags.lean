import Mathlib.Data.List.Basic
import BusReference.Proofs.DocComment.Tags
import BusReference.Proofs.Php.Lexeme.Measures

/-!
# Types in the tags of parameters

A parameter without a declared type takes the type of its tag in the doc comment.
The search for the tag may go across lines, since its blanks may be line feeds.
In a comment whose tags are complete it never does: a type and a name follow the
keyword wherever it stands, and both stand on its line.  So the first line for
the very name counts, whatever stands on the lines before it.
-/

namespace BusReference.DocComment

open BusReference.Text.Blank (isBlank)
open BusReference.Text.Pieces (infix_append_cons_iff)
open BusReference.Php.Lexeme.Reading (isNameChar isIndent)

/-! ## One tag -/

/-- The keyword of a tag for a parameter. -/
def paramKeyword : List Char := ['@', 'p', 'a', 'r', 'a', 'm']

theorem toList_param : "@param".toList = paramKeyword := rfl

theorem paramTagAt?_eq_none
    {name cs : List Char} (absent : ¬ paramKeyword <+: cs) :
    paramTagAt? name cs = none := by
  rw [paramTagAt?, toList_param, tagged?_eq_none absent]

/-- A complete tag is read for its own name and for no other one, however the two
begin. -/
theorem paramTagAt?_complete
    {type name other : List Char} {c : Char}
    (typed : type ≠ []) (solid : ∀ d ∈ type, isBlank d = false)
    (named : ∀ d ∈ name, isBlank d = false) (blank : isBlank c = true)
    (asked : ∀ d ∈ other, isBlank d = false) (rest : List Char) :
    paramTagAt? other
        (paramKeyword ++ ' ' :: (type ++ ' ' :: '$' :: (name ++ c :: rest))) =
      if name = other then some type else none := by
  have tagged : tagged? paramKeyword
      (paramKeyword ++ ' ' :: (type ++ ' ' :: '$' :: (name ++ c :: rest))) =
        some (type, ' ' :: '$' :: (name ++ c :: rest)) :=
    tagged?_eq_some_iff.mpr ⟨[' '], {
      text := rfl
      apart := List.cons_ne_nil _ _
      blank := List.forall_mem_singleton.mpr rfl
      filled := typed
      solid := solid
      stops := by rintro _ ⟨⟩; rfl }⟩
  have behind : afterBlanks? (' ' :: '$' :: (name ++ c :: rest)) =
      some ('$' :: (name ++ c :: rest)) := rfl
  rw [paramTagAt?, toList_param, tagged]
  dsimp only
  rw [behind]
  dsimp only
  by_cases same : name = other
  · subst same
    have found : after? ('$' :: name) ('$' :: (name ++ c :: rest)) =
        some (c :: rest) :=
      after?_eq_some_iff.mpr rfl
    rw [if_pos rfl, found]
    exact if_pos blank
  · rw [if_neg same]
    split
    · rename_i d after found
      refine if_neg fun ends => same ?_
      have text := after?_eq_some_iff.mp found
      exact word_eq_of_append_cons named blank asked ends
        (List.cons.inj text).2
    · rfl

/-! ## Comments -/

/-- A tag for a parameter as it stands on a line: the type and the name, and
perhaps a space and some text.  A second keyword on the line would be a tag of its
own; other marks, such as a second dollar sign, do not matter. -/
structure ParameterTag where
  type : String
  name : String
  remark : Option String
  typed : type ≠ ""
  solid : ∀ c ∈ type.toList, isBlank c = false
  named : name ≠ ""
  letters : ∀ c ∈ name.toList, isNameChar c = true
  unbroken : ∀ c ∈ name.toList, isBlank c = false
  line : ∀ text ∈ remark, '\n' ∉ text.toList
  typeFree : ¬ paramKeyword <:+: type.toList
  remarkFree : ∀ text ∈ remark, ¬ paramKeyword <:+: text.toList

/-- A line of a doc comment: a tag for a parameter, or any text without the
keyword of one. -/
inductive TagLine where
  | parameter (tag : ParameterTag)
  | other (text : String) (line : '\n' ∉ text.toList)
      (free : ¬ paramKeyword <:+: text.toList)

/-- What follows the name. -/
def ParameterTag.ending (tag : ParameterTag) : String :=
  match tag.remark with
  | none => ""
  | some text => " " ++ text

namespace TagLine

def text : TagLine → String
  | .parameter tag =>
    " * @param " ++ tag.type ++ " $" ++ tag.name ++ tag.ending
  | .other text _ _ => text

/-- The type that the line documents for the parameter of the given name. -/
def typeFor? (name : String) : TagLine → Option String
  | .parameter tag => if tag.name = name then some tag.type else none
  | .other _ _ _ => none

end TagLine

/-- A doc comment of the given lines, all of them indented alike. -/
def taggedComment (indent : String) (lines : List TagLine) : String :=
  "/**\n" ++ String.join (lines.map fun line => indent ++ line.text ++ "\n") ++
    (indent ++ " */")

theorem not_infix_of_not_mem {cs : List Char} (absent : '@' ∉ cs) :
    ¬ paramKeyword <:+: cs :=
  fun occurs => absent (occurs.subset List.mem_cons_self)

section Lines

theorem ParameterTag.at_not_mem_name (tag : ParameterTag) :
    '@' ∉ '$' :: tag.name.toList := by
  rw [List.mem_cons, not_or]
  refine ⟨by decide, fun inside => ?_⟩
  have letter := tag.letters _ inside
  revert letter
  decide

/-- What stands on the line of a tag after the first character of the keyword. -/
def ParameterTag.behind (tag : ParameterTag) : List Char :=
  ['p', 'a', 'r', 'a', 'm'] ++ ' ' :: (tag.type.toList ++ ' ' :: '$' ::
    (tag.name.toList ++ tag.ending.toList))

/-- The keyword does not stand on the line again. -/
theorem ParameterTag.not_infix_behind (tag : ParameterTag) :
    ¬ paramKeyword <:+: tag.behind := by
  have space : ' ' ∉ paramKeyword := by decide
  have ending : ¬ paramKeyword <:+:
      '$' :: (tag.name.toList ++ tag.ending.toList) := by
    rw [ParameterTag.ending]
    split
    · rw [String.toList_empty, List.append_nil]
      exact not_infix_of_not_mem tag.at_not_mem_name
    · rename_i text remark
      have split : '$' :: (tag.name.toList ++ (" " ++ text).toList) =
          '$' :: tag.name.toList ++ ' ' :: text.toList := by
        simp
      rw [split, infix_append_cons_iff space, not_or]
      exact ⟨not_infix_of_not_mem tag.at_not_mem_name,
        tag.remarkFree text remark⟩
  rw [ParameterTag.behind, infix_append_cons_iff space,
    infix_append_cons_iff space, not_or, not_or]
  exact ⟨by decide, tag.typeFree, ending⟩

/-- A blank stands behind the name, at the latest the end of the line. -/
theorem ParameterTag.exists_ending_cons (tag : ParameterTag) (rest : List Char) :
    ∃ c after, tag.ending.toList ++ '\n' :: rest = c :: after ∧
      isBlank c = true := by
  rw [ParameterTag.ending]
  split
  · exact ⟨'\n', rest, by simp, rfl⟩
  · rename_i text remark
    exact ⟨' ', text.toList ++ '\n' :: rest, by simp, rfl⟩

theorem ParameterTag.firstAt_line
    (tag : ParameterTag) (asked : String)
    (solid : ∀ c ∈ asked.toList, isBlank c = false) (rest : List Char) :
    firstAt (paramTagAt? asked.toList) ('@' :: (tag.behind ++ '\n' :: rest)) =
      if tag.name = asked then some tag.type.toList
      else firstAt (paramTagAt? asked.toList) rest := by
  have typed : tag.type.toList ≠ [] := by
    simpa using tag.typed
  obtain ⟨c, after, ending, blank⟩ := tag.exists_ending_cons rest
  have text : '@' :: (tag.behind ++ '\n' :: rest) =
      paramKeyword ++ ' ' :: (tag.type.toList ++ ' ' :: '$' ::
        (tag.name.toList ++ c :: after)) := by
    rw [← ending]
    simp [ParameterTag.behind, paramKeyword]
  have here : paramTagAt? asked.toList ('@' :: (tag.behind ++ '\n' :: rest)) =
      if tag.name.toList = asked.toList then some tag.type.toList else none := by
    rw [text]
    exact paramTagAt?_complete typed tag.solid tag.unbroken blank solid after
  have later : firstAt (paramTagAt? asked.toList) (tag.behind ++ '\n' :: rest) =
      firstAt (paramTagAt? asked.toList) rest :=
    firstAt_append_cons (fun _ => paramTagAt?_eq_none) (List.cons_ne_nil _ _)
      tag.not_infix_behind (by decide) rest
  rw [firstAt, here]
  by_cases same : tag.name = asked
  · rw [if_pos same, if_pos (congrArg String.toList same)]
  · rw [if_neg same, if_neg fun equal => same (String.toList_inj.mp equal)]
    exact later

/-- A line of a comment is passed over unless it is a tag for the very name. -/
theorem TagLine.firstAt_line
    (line : TagLine) {asked indent : String}
    (solid : ∀ c ∈ asked.toList, isBlank c = false)
    (indented : ∀ c ∈ indent.toList, isIndent c = true) (rest : List Char) :
    firstAt (paramTagAt? asked.toList)
        ((indent ++ line.text ++ "\n").toList ++ rest) =
      ((line.typeFor? asked).map String.toList).or
        (firstAt (paramTagAt? asked.toList) rest) := by
  have noAt : '@' ∉ indent.toList := by
    intro inside
    cases indented _ inside
  cases line with
  | parameter tag =>
      have text : (indent ++ (TagLine.parameter tag).text ++ "\n").toList ++ rest =
          indent.toList ++ [' ', '*', ' '] ++
            '@' :: (tag.behind ++ '\n' :: rest) := by
        simp only [TagLine.text, ParameterTag.behind, String.toList_append,
          List.append_assoc, List.cons_append]
        rfl
      have absent : '@' ∉ indent.toList ++ [' ', '*', ' '] := by
        rw [List.mem_append, not_or]
        exact ⟨noAt, by decide⟩
      rw [text, firstAt_append_of_not_mem (fun _ => paramTagAt?_eq_none) rfl absent,
        tag.firstAt_line asked solid, TagLine.typeFor?]
      split <;> rfl
  | other content line free =>
      have text : (indent ++ (TagLine.other content line free).text ++ "\n").toList ++
            rest =
          indent.toList ++ (content.toList ++ '\n' :: rest) := by
        simp [TagLine.text]
      rw [text, firstAt_append_of_not_mem (fun _ => paramTagAt?_eq_none) rfl noAt,
        firstAt_append_cons (fun _ => paramTagAt?_eq_none) (List.cons_ne_nil _ _)
          free (by decide)]
      rfl

theorem TagLine.typeFor?_eq_none_iff {line : TagLine} {asked : String} :
    line.typeFor? asked = none ↔
      ∀ tag, line = .parameter tag → tag.name ≠ asked := by
  cases line with
  | parameter tag =>
      rw [typeFor?, ite_eq_right_iff]
      constructor
      · rintro other _ ⟨⟩ same
        cases other same
      · exact fun apart same => absurd same (apart tag rfl)
  | other text line free => exact ⟨nofun, fun _ => rfl⟩

theorem TagLine.typeFor?_eq_some_iff
    {line : TagLine} {asked type : String} :
    line.typeFor? asked = some type ↔
      ∃ tag, line = .parameter tag ∧ tag.name = asked ∧ tag.type = type := by
  cases line with
  | parameter tag =>
      rw [typeFor?, Option.ite_none_right_eq_some, Option.some.injEq]
      constructor
      · exact fun ⟨name, type⟩ => ⟨tag, rfl, name, type⟩
      · rintro ⟨_, ⟨⟩, name, type⟩
        exact ⟨name, type⟩
  | other text line free =>
      refine ⟨nofun, ?_⟩
      rintro ⟨_, ⟨⟩, -⟩

/-- The lines are asked one after the other. -/
theorem firstAt_lines
    (lines : List TagLine) {asked indent : String}
    (solid : ∀ c ∈ asked.toList, isBlank c = false)
    (indented : ∀ c ∈ indent.toList, isIndent c = true) (rest : List Char) :
    firstAt (paramTagAt? asked.toList)
        ((String.join (lines.map fun line => indent ++ line.text ++ "\n")).toList ++
          rest) =
      ((lines.findSome? (TagLine.typeFor? asked)).map String.toList).or
        (firstAt (paramTagAt? asked.toList) rest) := by
  induction lines with
  | nil => rfl
  | cons line lines ih =>
      rw [List.map_cons, String.join_cons, String.toList_append, List.append_assoc,
        line.firstAt_line solid indented, ih, List.findSome?_cons]
      cases line.typeFor? asked <;> rfl

end Lines

/-- The type of a parameter is that of the first tag for its name.  Tags for names
that its name begins with, or that begin with it, are passed over like all other
text. -/
theorem paramTag?_taggedComment
    (lines : List TagLine) {asked indent : String}
    (solid : ∀ c ∈ asked.toList, isBlank c = false)
    (indented : ∀ c ∈ indent.toList, isIndent c = true) :
    paramTag? (taggedComment indent lines) asked =
        lines.findSome? (TagLine.typeFor? asked) ∧
      (∀ type, paramTag? (taggedComment indent lines) asked = some type ↔
        ∃ before tag after, lines = before ++ .parameter tag :: after ∧
          tag.name = asked ∧ tag.type = type ∧
          ∀ other, .parameter other ∈ before → other.name ≠ asked) ∧
      (paramTag? (taggedComment indent lines) asked = none ↔
        ∀ tag, .parameter tag ∈ lines → tag.name ≠ asked) := by
  have noAt : '@' ∉ (indent ++ " */").toList := by
    rw [String.toList_append, List.mem_append, not_or]
    exact ⟨fun inside => (by cases indented _ inside), by decide⟩
  have closing : firstAt (paramTagAt? asked.toList) (indent ++ " */").toList =
      none := by
    rw [← List.append_nil (indent ++ " */").toList,
      firstAt_append_of_not_mem (fun _ => paramTagAt?_eq_none) rfl noAt]
    rfl
  have opening : ∀ rest, firstAt (paramTagAt? asked.toList)
      ("/**\n".toList ++ rest) = firstAt (paramTagAt? asked.toList) rest :=
    firstAt_append_of_not_mem (fun _ => paramTagAt?_eq_none) rfl (by decide)
  have found : paramTag? (taggedComment indent lines) asked =
      lines.findSome? (TagLine.typeFor? asked) := by
    rw [paramTag?, taggedComment, String.toList_append, String.toList_append,
      List.append_assoc, opening, firstAt_lines lines solid indented, closing,
      Option.or_none, Option.map_map]
    have same : String.ofList ∘ String.toList = id :=
      funext fun _ => String.ofList_toList
    rw [same, Option.map_id, id]
  refine ⟨found, fun type => ?_, ?_⟩
  · rw [found, List.findSome?_eq_some_iff]
    constructor
    · rintro ⟨before, line, after, split, typed, earlier⟩
      obtain ⟨tag, rfl, named, type⟩ := TagLine.typeFor?_eq_some_iff.mp typed
      exact ⟨before, tag, after, split, named, type, fun other inside =>
        TagLine.typeFor?_eq_none_iff.mp (earlier _ inside) other rfl⟩
    · rintro ⟨before, tag, after, split, named, type, earlier⟩
      refine ⟨before, .parameter tag, after, split,
        TagLine.typeFor?_eq_some_iff.mpr ⟨tag, rfl, named, type⟩, ?_⟩
      intro line inside
      apply TagLine.typeFor?_eq_none_iff.mpr
      rintro other rfl
      exact earlier other inside
  · rw [found, List.findSome?_eq_none_iff]
    constructor
    · exact fun missing tag inside =>
        TagLine.typeFor?_eq_none_iff.mp (missing _ inside) tag rfl
    · intro missing line inside
      apply TagLine.typeFor?_eq_none_iff.mpr
      rintro tag rfl
      exact missing tag inside

/-- A tag before one whose name goes on with the same letters. -/
def namesakes : List TagLine :=
  [.parameter {
      type := "int"
      name := "i"
      remark := some "a place"
      typed := by decide
      solid := List.forall_iff_forall_mem.mp (by decide)
      named := by decide
      letters := List.forall_iff_forall_mem.mp (by decide)
      unbroken := List.forall_iff_forall_mem.mp (by decide)
      line := by decide
      typeFree := by decide
      remarkFree := by decide },
    .other " * @return int $id" (by decide) (by decide),
    .parameter {
      type := "TaxId|null"
      name := "id"
      remark := none
      typed := by decide
      solid := List.forall_iff_forall_mem.mp (by decide)
      named := by decide
      letters := List.forall_iff_forall_mem.mp (by decide)
      unbroken := List.forall_iff_forall_mem.mp (by decide)
      line := by decide
      typeFree := by decide
      remarkFree := by decide }]

theorem paramTag?_taggedComment_namesakes :
    (∀ c ∈ "id".toList, isBlank c = false) ∧
      (∀ c ∈ "    ".toList, isIndent c = true) ∧
      paramTag? (taggedComment "    " namesakes) "id" = some "TaxId|null" := by
  have solid : ∀ c ∈ "id".toList, isBlank c = false :=
    List.forall_iff_forall_mem.mp (by decide)
  have indented : ∀ c ∈ "    ".toList, isIndent c = true :=
    List.forall_iff_forall_mem.mp (by decide)
  exact ⟨solid, indented, (paramTag?_taggedComment namesakes solid indented).1⟩

end BusReference.DocComment
