import Mathlib
import BusReference.Proofs.Files.Way
import BusReference.Proofs.Php.Enclosing
import BusReference.Proofs.Php.Grammar.Agreement

/-!
# Tokens without their doc comments

Brackets, lists, types and expressions are read as if there were no doc
comments among their tokens.  The text of a type also tells how many ampersands
and modifiers came into it, since it keeps their characters.
-/

namespace BusReference.Php

open BusReference.Text (Pieces.splitOn)

/-! ## Tokens without doc comments -/

def Token.isDocComment : Token → Bool
  | .docComment _ => true
  | _ => false

def withoutDocs (ts : List Token) : List Token :=
  ts.filter (!·.isDocComment)

section WithoutDocs

variable {t : Token} {ts us : List Token}

@[simp]
theorem withoutDocs_nil : withoutDocs [] = [] := rfl

@[simp]
theorem withoutDocs_docComment (text : String) :
    withoutDocs (.docComment text :: ts) = withoutDocs ts := rfl

theorem exists_of_isDocComment (isDoc : t.isDocComment = true) :
    ∃ text, t = .docComment text := by
  cases t with
  | docComment text => exact ⟨text, rfl⟩
  | _ => cases isDoc

theorem withoutDocs_cons (kept : t.isDocComment = false) :
    withoutDocs (t :: ts) = t :: withoutDocs ts :=
  List.filter_cons_of_pos (by rw [kept]; rfl)

theorem withoutDocs_append :
    withoutDocs (ts ++ us) = withoutDocs ts ++ withoutDocs us :=
  List.filter_append ts us

theorem map_withoutDocs_docComment (text : String) (tss : List (List Token)) :
    (tss.modifyHead (.docComment text :: ·)).map withoutDocs =
      tss.map withoutDocs := by
  cases tss <;> rfl

theorem map_withoutDocs_modifyHead
    (kept : t.isDocComment = false) (tss : List (List Token)) :
    (tss.modifyHead (t :: ·)).map withoutDocs =
      (tss.map withoutDocs).modifyHead (t :: ·) := by
  cases tss with
  | nil => rfl
  | cons first others => simp [withoutDocs_cons kept]

/-- Doc comments are no brackets. -/
theorem Balanced.withoutDocs
    {pairs : List BracketPair} (balanced : Balanced pairs ts)
    (brackets : ∀ pair ∈ pairs,
      pair.1.isDocComment = false ∧ pair.2.isDocComment = false) :
    Balanced pairs (withoutDocs ts) := by
  induction balanced with
  | nil => exact .nil
  | @plain t ts noBracket later ih =>
      cases t with
      | docComment text => exact ih
      | _ => exact .plain noBracket ih
  | group listed inside later ihInside ihLater =>
      obtain ⟨opener, closer⟩ := brackets _ listed
      rw [withoutDocs_cons opener, withoutDocs_append,
        withoutDocs_cons closer]
      exact .group listed ihInside ihLater

theorem Attribute.skipGroup_withoutDocs (depth : Nat) (ts : List Token) :
    skipGroup depth (withoutDocs ts) = withoutDocs (skipGroup depth ts) := by
  induction ts generalizing depth with
  | nil => rfl
  | cons t ts ih =>
      cases t with
      | docComment text => exact ih depth
      | attributeOpen => exact ih (depth + 1)
      | punct c =>
          rw [withoutDocs_cons rfl]
          by_cases opens : c = '['
          · simpa [skipGroup, opens] using ih (depth + 1)
          · by_cases closes : c = ']'
            · subst closes
              cases depth with
              | zero => rfl
              | succ depth => exact ih depth
            · simpa [skipGroup, opens, closes] using ih depth
      | _ => exact ih depth

/-- The items of a list are separated at the same places. -/
theorem listItems_withoutDocs (depth : Nat) (ts : List Token) :
    listItems depth (withoutDocs ts) = (listItems depth ts).map withoutDocs := by
  induction ts generalizing depth with
  | nil => rfl
  | cons t ts ih =>
      by_cases separates : t = .punct ',' ∧ depth = 0
      · obtain ⟨rfl, rfl⟩ := separates
        rw [withoutDocs_cons rfl, listItems, if_pos ⟨rfl, rfl⟩, listItems,
          if_pos ⟨rfl, rfl⟩, ih]
        rfl
      · rw [listItems_cons separates]
        cases isDoc : t.isDocComment with
        | true =>
            obtain ⟨text, rfl⟩ := exists_of_isDocComment isDoc
            rw [withoutDocs_docComment, map_withoutDocs_docComment, ih]
            rfl
        | false =>
            rw [withoutDocs_cons isDoc, map_withoutDocs_modifyHead isDoc,
              listItems_cons separates, ih]

/-- The text of an expression has no doc comments. -/
theorem Token.join_withoutDocs (ts : List Token) :
    join (withoutDocs ts) = join ts := by
  have after : ∀ afterWord,
      joinAfter afterWord (withoutDocs ts) = joinAfter afterWord ts := by
    induction ts with
    | nil => exact fun _ => rfl
    | cons t ts ih =>
        intro afterWord
        cases t with
        | docComment text => exact ih afterWord
        | _ => rw [withoutDocs_cons rfl, joinAfter, joinAfter, ih] <;> simp
  exact after false

end WithoutDocs

/-! ## Types without doc comments -/

namespace Signature

theorem splitOn_withoutDocs (ts : List Token) :
    Pieces.splitOn (.punct '|') (withoutDocs ts) =
      (Pieces.splitOn (.punct '|') ts).map withoutDocs := by
  rw [Files.Path.splitOn_eq, Files.Path.splitOn_eq]
  induction ts with
  | nil => rfl
  | cons t ts ih =>
      rw [List.splitOn_cons_eq_if_modifyHead]
      cases isDoc : t.isDocComment with
      | true =>
          obtain ⟨text, rfl⟩ := exists_of_isDocComment isDoc
          rw [withoutDocs_docComment, ih, if_neg (by simp),
            map_withoutDocs_docComment]
      | false =>
          rw [withoutDocs_cons isDoc, List.splitOn_cons_eq_if_modifyHead, ih]
          split
          · rfl
          · rw [map_withoutDocs_modifyHead isDoc]

theorem join_memberText_withoutDocs (scope : Scope) (ts : List Token) :
    String.join ((withoutDocs ts).map (memberText scope)) =
      String.join (ts.map (memberText scope)) := by
  induction ts with
  | nil => rfl
  | cons t ts ih =>
      rw [List.map_cons, String.join_cons, ← ih]
      cases isDoc : t.isDocComment with
      | true =>
          obtain ⟨text, rfl⟩ := exists_of_isDocComment isDoc
          simp [memberText]
      | false => rw [withoutDocs_cons isDoc, List.map_cons, String.join_cons]

/-- A declared type is the same with doc comments in it. -/
theorem readType_withoutDocs (scope : Scope) (ts : List Token) :
    readType scope (withoutDocs ts) = readType scope ts := by
  have members : typeMembers scope (withoutDocs ts) = typeMembers scope ts := by
    rw [typeMembers, typeMembers, splitOn_withoutDocs, List.map_map]
    congr 1
    exact List.map_congr_left fun member _ =>
      join_memberText_withoutDocs scope member
  have optional : (withoutDocs ts).contains (.punct '?') =
      ts.contains (.punct '?') := by
    rw [Bool.eq_iff_iff, List.contains_iff_mem, List.contains_iff_mem,
      withoutDocs, List.mem_filter]
    exact and_iff_left rfl
  rw [readType, readType, members, optional]

/-! ## Counting marks of a type

Modifiers and ampersands that come into a type are found again in its text,
whatever else is in it: they bring letters that neither `null` nor the
separators have.
-/

/-- The number of ampersands and of letters that modifiers start with. -/
def marks (text : String) : Nat :=
  text.toList.countP fun c => ['&', 'p', 'r'].contains c.toLower

@[simp]
theorem marks_append (first second : String) :
    marks (first ++ second) = marks first + marks second := by
  rw [marks, String.toList_append, List.countP_append]
  rfl

theorem marks_join (texts : List String) :
    marks (String.join texts) = (texts.map marks).sum := by
  induction texts with
  | nil => rfl
  | cons text texts ih =>
      rw [String.join_cons, marks_append, ih, List.map_cons, List.sum_cons]

theorem marks_intercalate (texts : List String) :
    marks ("|".intercalate texts) = (texts.map marks).sum := by
  induction texts with
  | nil => rfl
  | cons text texts ih =>
      cases texts with
      | nil => simp
      | cons other texts =>
          have bar : marks "|" = 0 := by decide
          rw [String.intercalate_cons_cons, marks_append, marks_append, ih,
            bar, Nat.add_zero]
          rfl

/-- A text without marks may be left out. -/
theorem sum_marks_filter {dropped : String} (none : marks dropped = 0)
    (texts : List String) :
    ((texts.filter (· != dropped)).map marks).sum = (texts.map marks).sum := by
  induction texts with
  | nil => rfl
  | cons text texts ih =>
      rw [List.filter_cons]
      split
      · rw [List.map_cons, List.map_cons, List.sum_cons, List.sum_cons, ih]
      · rename_i same
        have same : text = dropped := by simpa using same
        rw [List.map_cons, List.sum_cons, same, none, ih, Nat.zero_add]

/-- The marks that the tokens of a type bring. -/
def typeMarks (scope : Scope) (ts : List Token) : Nat :=
  (ts.map fun t => marks (memberText scope t)).sum

theorem typeMarks_cons (scope : Scope) (t : Token) (ts : List Token) :
    typeMarks scope (t :: ts) =
      marks (memberText scope t) + typeMarks scope ts := rfl

theorem typeMarks_append (scope : Scope) (ts us : List Token) :
    typeMarks scope (ts ++ us) = typeMarks scope ts + typeMarks scope us := by
  rw [typeMarks, List.map_append, List.sum_append]
  rfl

theorem sum_typeMarks_splitOn (scope : Scope) (ts : List Token) :
    ((Pieces.splitOn (.punct '|') ts).map (typeMarks scope)).sum =
      typeMarks scope ts := by
  rw [Files.Path.splitOn_eq]
  induction ts with
  | nil => rfl
  | cons t ts ih =>
      rw [List.splitOn_cons_eq_if_modifyHead, typeMarks_cons, ← ih]
      split
      · rename_i bar
        rw [eq_of_beq bar]
        rfl
      · have nonempty := List.splitOn_ne_nil (Token.punct '|') ts
        cases split : List.splitOn (Token.punct '|') ts with
        | nil => exact absurd split nonempty
        | cons first others =>
            rw [List.modifyHead_cons, List.map_cons, List.map_cons,
              List.sum_cons, List.sum_cons, typeMarks_cons, Nat.add_assoc]

theorem sum_marks_typeMembers (scope : Scope) (ts : List Token) :
    ((typeMembers scope ts).map marks).sum = typeMarks scope ts := by
  rw [typeMembers, sum_marks_filter rfl, ← sum_typeMarks_splitOn,
    List.map_map]
  congr 1
  refine List.map_congr_left fun member _ => ?_
  rw [Function.comp_apply, marks_join, List.map_map]
  rfl

/-- No mark of a type gets lost. -/
theorem marks_readType (scope : Scope) (ts : List Token) :
    ((readType scope ts).map fun r => marks r.1).getD 0 =
      typeMarks scope ts := by
  have kept : (((typeMembers scope ts).filter (· != "null")).map marks).sum =
      typeMarks scope ts := by
    rw [sum_marks_filter (by decide), sum_marks_typeMembers]
  rw [readType]
  split
  · rename_i nothing
    rw [List.isEmpty_iff.mp nothing] at kept
    rw [← kept]
    split <;> decide
  · rw [← kept, ← marks_intercalate]
    rfl

theorem exists_of_isModifier {t : Token} (modifier : isModifier t = true) :
    ∃ text, t = .name text := by
  cases t with
  | name text => exact ⟨text, rfl⟩
  | _ => cases modifier

/-- A modifier in a type brings a mark, unless it is an imported name. -/
theorem marks_modifier
    {scope : Scope} {text : String}
    (noAlias : ∀ entry ∈ scope.imports, isModifier (.name entry.1) = false)
    (modifier : isModifier (.name text) = true) :
    0 < marks (memberText scope (.name text)) := by
  have small : text.toLower ∈
      ["public", "protected", "private", "readonly"] := by
    simpa [isModifier, Token.isKeyword] using modifier
  have letters : text.toLower.toList = text.toList.map Char.toLower :=
    String.toList_map
  have counted : marks text =
      text.toLower.toList.countP (['&', 'p', 'r'].contains ·) := by
    rw [letters, List.countP_map]
    rfl
  have positive : 0 < marks text := by
    rw [counted]
    generalize text.toLower = word at small
    revert word
    decide
  have unqualified : '\\' ∉ text.toList := by
    intro inside
    have lower : '\\' ∈ text.toLower.toList := by
      rw [letters]
      exact List.mem_map_of_mem (f := Char.toLower) inside
    generalize text.toLower = word at small lower
    revert word
    decide
  have noType : ¬ Scope.builtinTypes.contains text.toLower = true := by
    generalize text.toLower = word at small
    revert word
    decide
  have unknown : scope.imports.lookup text = none := by
    rw [List.lookup_eq_none_iff]
    intro entry listed
    rw [bne_iff_ne]
    rintro rfl
    rw [noAlias entry listed] at modifier
    cases modifier
  rw [memberText, Scope.resolveType, if_neg noType,
    Scope.resolve_of_unknown unqualified unknown, Scope.qualify]
  split
  · exact positive
  · rw [marks_append]
    omega

end Signature

end BusReference.Php
