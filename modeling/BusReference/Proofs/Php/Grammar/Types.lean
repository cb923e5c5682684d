import BusReference.Proofs.Files.Way
import BusReference.Proofs.Php.Balance
import BusReference.Proofs.Text.Intercalating

/-!
# Types as they are written

A written type is a list of members, which bars separate; a member is the name
of a type or an intersection of several.  Reading the tokens of a written type
gives the resolved members other than `null`, and whether the type accepts
null.
-/

namespace BusReference.Php

open BusReference.Text (Pieces.splitOn)

/-! ## Names -/

namespace Grammar

/-- Keywords that are no names of types. -/
def reservedWords : List String :=
  ["abstract", "as", "const", "extends", "final", "function", "implements",
    "private", "protected", "public", "readonly", "use"]

/-- A reference to a type: a name that is no keyword. -/
structure Reference where
  text : String
  named : plainName text ≠ "" := by decide +kernel
  unreserved : text.toLower ∉ reservedWords := by decide +kernel

theorem plainName_append
    {name : String} (named : plainName name ≠ "") (more : String) :
    plainName (name ++ more) = plainName name ++ more := by
  have nonempty : name.toList.dropWhile (· == '\\') ≠ [] := by
    intro empty
    rw [plainName, Text.Pieces.dropLeading, empty] at named
    exact named rfl
  rw [plainName, plainName, Text.Pieces.dropLeading,
    Text.Pieces.dropLeading, String.toList_append, List.dropWhile_append,
    if_neg (by simpa using nonempty), String.ofList_append,
    String.ofList_toList]

/-- References with a mark between them. -/
def nameList (mark : Char) (names : List Reference) : List Token :=
  [Token.punct mark].intercalate (names.map fun name => [.name name.text])

theorem nameList_cons_cons
    (mark : Char) (name other : Reference) (names : List Reference) :
    nameList mark (name :: other :: names) =
      .name name.text :: .punct mark :: nameList mark (other :: names) :=
  List.intercalate_cons_cons

theorem mem_nameList
    {mark : Char} {names : List Reference} {t : Token}
    (member : t ∈ nameList mark names) :
    t = .punct mark ∨ ∃ name ∈ names, t = .name name.text := by
  refine (Text.mem_of_mem_intercalate member).imp List.mem_singleton.mp ?_
  rintro ⟨piece, listed, inside⟩
  obtain ⟨name, named, rfl⟩ := List.mem_map.mp listed
  exact ⟨name, named, List.mem_singleton.mp inside⟩

end Grammar

namespace Scope

/-- Everything that is imported has a name. -/
def NamesImports (scope : Scope) : Prop :=
  ∀ entry ∈ scope.imports, entry.2 ≠ ""

instance (scope : Scope) : Decidable scope.NamesImports :=
  inferInstanceAs (Decidable (∀ entry ∈ scope.imports, _))

theorem resolve_ne_empty
    {scope : Scope} (imports : scope.NamesImports)
    {name : String} (named : plainName name ≠ "") :
    scope.resolve name ≠ "" := by
  rw [resolve]
  split
  · rename_i absolute leads
    intro empty
    rw [String.ofList_eq_empty_iff] at empty
    refine named ?_
    rw [plainName, Text.Pieces.dropLeading, leads, empty]
    rfl
  · dsimp only
    split
    · rename_i imported found
      obtain ⟨before, after, entries, -⟩ := List.lookup_eq_some_iff.mp found
      rw [NamesImports, entries] at imports
      intro empty
      exact imports _ (List.mem_append_right _ List.mem_cons_self)
        (String.append_eq_empty_iff.mp empty).1
    · intro empty
      rw [qualify] at empty
      split at empty
      · rw [empty] at named
        exact named rfl
      · rw [String.append_eq_empty_iff] at empty
        exact named (by rw [empty.2]; rfl)

theorem resolveType_ne_empty
    {scope : Scope} (imports : scope.NamesImports)
    {name : String} (named : plainName name ≠ "") :
    scope.resolveType name ≠ "" := by
  rw [resolveType]
  split
  · rename_i builtin
    intro empty
    rw [empty] at builtin
    exact absurd builtin (by decide)
  · exact resolve_ne_empty imports named

end Scope

namespace Grammar

open Signature (memberText readType typeMembers)

/-! ## Members -/

/-- A member of a union type. -/
inductive TypeMember where
  | name (name : Reference)
  | intersection
      (parenthesised : Bool) (first second : Reference)
      (others : List Reference)

namespace TypeMember

def tokens : TypeMember → List Token
  | name n => [.name n.text]
  | intersection parenthesised first second others =>
      let names := nameList '&' (first :: second :: others)
      if parenthesised then .punct '(' :: (names ++ [.punct ')']) else names

/-- The resolved text of a member. -/
def text (scope : Scope) : TypeMember → String
  | name n => scope.resolveType n.text
  | intersection parenthesised first second others =>
      let names := String.intercalate "&"
        ((first :: second :: others).map (scope.resolveType ·.text))
      if parenthesised then "(" ++ names ++ ")" else names

/--
The member is `null`, in any letter case, or a name that stands for it because
of an import.
-/
def isNull (scope : Scope) : TypeMember → Bool
  | name n =>
      n.text.toLower == "null" || scope.resolveType n.text == "null"
  | intersection .. => false

/-- A token of a member: a name, an ampersand or a parenthesis. -/
theorem cases_of_mem_tokens
    {m : TypeMember} {t : Token} (member : t ∈ m.tokens) :
    (∃ n : Reference, t = .name n.text) ∨ t = .punct '&' ∨
      t = .punct '(' ∨ t = .punct ')' := by
  have ofList : ∀ {names : List Reference}, t ∈ nameList '&' names →
      (∃ n : Reference, t = .name n.text) ∨ t = .punct '&' := by
    intro names listed
    rcases mem_nameList listed with mark | ⟨n, -, same⟩
    · exact Or.inr mark
    · exact Or.inl ⟨n, same⟩
  cases m with
  | name n => exact Or.inl ⟨n, List.mem_singleton.mp member⟩
  | intersection parenthesised first second others =>
      rw [tokens] at member
      split at member
      · rw [List.mem_cons, List.mem_append, List.mem_singleton] at member
        rcases member with opening | listed | closing
        · exact Or.inr (Or.inr (Or.inl opening))
        · exact (ofList listed).imp_right Or.inl
        · exact Or.inr (Or.inr (Or.inr closing))
      · exact (ofList member).imp_right Or.inl

theorem not_mem_tokens
    {m : TypeMember} {c : Char} (apart : c ∉ ['&', '(', ')']) :
    .punct c ∉ m.tokens := by
  intro member
  rcases cases_of_mem_tokens member with ⟨n, same⟩ | same
  · cases same
  · simp only [Token.punct.injEq] at same
    exact apart (by simpa using same)

theorem join_nameList (scope : Scope) (names : List Reference) :
    String.join ((nameList '&' names).map (memberText scope)) =
      String.intercalate "&" (names.map (scope.resolveType ·.text)) := by
  induction names with
  | nil => rfl
  | cons n names ih =>
      cases names with
      | nil => simp [nameList, memberText, String.join_cons]
      | cons other names =>
          rw [nameList_cons_cons, List.map_cons, List.map_cons,
            String.join_cons, String.join_cons, ih]
          simp only [List.map_cons, String.intercalate_cons_cons,
            String.append_assoc]
          rfl

theorem join_tokens (scope : Scope) (m : TypeMember) :
    String.join (m.tokens.map (memberText scope)) = m.text scope := by
  cases m with
  | name n => simp [tokens, text, memberText, String.join_cons]
  | intersection parenthesised first second others =>
      rw [tokens, text]
      split
      · rw [List.map_cons, List.map_append, String.join_cons,
          String.join_append, join_nameList, String.append_assoc]
        simp [memberText, String.join_cons]
      · exact join_nameList scope _

/-- The resolved text of an intersection has an ampersand. -/
theorem ampersand_mem_text
    (scope : Scope) (parenthesised : Bool) (first second : Reference)
    (others : List Reference) :
    '&' ∈ ((intersection parenthesised first second others).text
      scope).toList := by
  have inside : '&' ∈ (String.intercalate "&"
      ((first :: second :: others).map
        (scope.resolveType ·.text))).toList := by
    rw [List.map_cons, List.map_cons, String.intercalate_cons_cons,
      String.toList_append, String.toList_append]
    exact List.mem_append_left _ (List.mem_append_right _ List.mem_cons_self)
  rw [text]
  split
  · rw [String.toList_append, String.toList_append]
    exact List.mem_append_left _ (List.mem_append_right _ inside)
  · exact inside

theorem text_ne_empty
    {scope : Scope} (imports : scope.NamesImports) (m : TypeMember) :
    m.text scope ≠ "" := by
  cases m with
  | name n => exact Scope.resolveType_ne_empty imports n.named
  | intersection parenthesised first second others =>
      intro empty
      have inside :=
        ampersand_mem_text scope parenthesised first second others
      rw [empty] at inside
      cases inside

/-- A member is `null` exactly if that is its text. -/
theorem isNull_eq (scope : Scope) (m : TypeMember) :
    m.isNull scope = (m.text scope == "null") := by
  cases m with
  | name n =>
      rw [isNull, text, Bool.eq_iff_iff, Bool.or_eq_true, beq_iff_eq,
        beq_iff_eq]
      refine ⟨?_, Or.inr⟩
      rintro (null | null)
      · rw [Scope.resolveType, null]
        rfl
      · exact null
  | intersection parenthesised first second others =>
      have inside :=
        ampersand_mem_text scope parenthesised first second others
      symm
      rw [isNull, beq_eq_false_iff_ne]
      intro null
      rw [null] at inside
      exact absurd inside (by decide)

end TypeMember

/-! ## Types -/

/-- A written type; the question mark makes it optional. -/
structure WrittenType where
  optional : Bool
  first : TypeMember
  others : List TypeMember

namespace WrittenType

def members (type : WrittenType) : List TypeMember :=
  type.first :: type.others

def mark (type : WrittenType) : List Token :=
  optionalToken type.optional (.punct '?')

def tokens (type : WrittenType) : List Token :=
  type.mark ++ [Token.punct '|'].intercalate (type.members.map (·.tokens))

/--
The resolved members other than `null`, in their order; only if there are no
others, `null` itself.
-/
def text (scope : Scope) (type : WrittenType) : String :=
  let kept := type.members.filter fun m => !m.isNull scope
  if kept.isEmpty then "null"
  else String.intercalate "|" (kept.map (·.text scope))

def acceptsNull (scope : Scope) (type : WrittenType) : Bool :=
  type.optional || type.members.any (·.isNull scope)

variable (type : WrittenType)

theorem cases_of_mem_tokens {t : Token} (member : t ∈ type.tokens) :
    (∃ n : Reference, t = .name n.text) ∨ t = .punct '?' ∨
      t = .punct '|' ∨ t = .punct '&' ∨ t = .punct '(' ∨ t = .punct ')' := by
  rw [tokens, List.mem_append] at member
  rcases member with inMark | inMembers
  · rw [mark, optionalToken] at inMark
    split at inMark
    · exact Or.inr (Or.inl (List.mem_singleton.mp inMark))
    · cases inMark
  · rcases Text.mem_of_mem_intercalate inMembers with
      bar | ⟨piece, listed, inside⟩
    · exact Or.inr (Or.inr (Or.inl (List.mem_singleton.mp bar)))
    · obtain ⟨m, -, rfl⟩ := List.mem_map.mp listed
      refine (TypeMember.cases_of_mem_tokens inside).imp_right fun marks => ?_
      exact Or.inr (Or.inr marks)

theorem splitOn_tokens :
    Pieces.splitOn (.punct '|') type.tokens =
      (type.mark ++ type.first.tokens) ::
        type.others.map (·.tokens) := by
  have marked : type.tokens = [Token.punct '|'].intercalate
      ((type.mark ++ type.first.tokens) ::
        type.others.map (·.tokens)) := by
    rw [tokens, members]
    cases type.others with
    | nil => simp
    | cons other others => simp [List.intercalate_cons_cons]
  rw [marked, Files.Path.splitOn_eq]
  refine List.splitOn_intercalate _ ?_ (List.cons_ne_nil _ _)
  intro piece member
  rcases List.mem_cons.mp member with rfl | later
  · rw [List.mem_append, not_or, mark, optionalToken]
    refine ⟨?_, TypeMember.not_mem_tokens (by decide)⟩
    split <;> simp
  · obtain ⟨m, -, rfl⟩ := List.mem_map.mp later
    exact TypeMember.not_mem_tokens (by decide)

theorem typeMembers_tokens
    {scope : Scope} (imports : scope.NamesImports) :
    typeMembers scope type.tokens = type.members.map (·.text scope) := by
  have first :
      String.join ((type.mark ++ type.first.tokens).map (memberText scope)) =
        type.first.text scope := by
    rw [List.map_append, String.join_append, TypeMember.join_tokens, mark,
      optionalToken]
    split <;> simp [memberText, String.join_cons]
  have others : (type.others.map (·.tokens)).map
        (fun member => String.join (member.map (memberText scope))) =
      type.others.map (·.text scope) := by
    rw [List.map_map]
    exact List.map_congr_left fun m _ => TypeMember.join_tokens scope m
  rw [typeMembers, splitOn_tokens, List.map_cons, first, others, members,
    ← List.map_cons, List.filter_eq_self]
  intro text listed
  obtain ⟨m, -, rfl⟩ := List.mem_map.mp listed
  simpa using m.text_ne_empty imports

theorem contains_question :
    type.tokens.contains (.punct '?') = type.optional := by
  have clean :
      Token.punct '?' ∉
        [Token.punct '|'].intercalate (type.members.map (·.tokens)) := by
    intro member
    rcases Text.mem_of_mem_intercalate member with
      same | ⟨piece, listed, inside⟩
    · exact absurd same (by decide)
    · obtain ⟨m, -, rfl⟩ := List.mem_map.mp listed
      exact TypeMember.not_mem_tokens (by decide) inside
  rw [Bool.eq_iff_iff, List.contains_iff_mem, tokens, List.mem_append, mark,
    optionalToken]
  constructor
  · rintro (marked | inside)
    · split at marked
      · assumption
      · cases marked
    · exact absurd inside clean
  · intro optional
    rw [if_pos optional]
    exact Or.inl List.mem_cons_self

/-- Reading the tokens of a written type gives its text and its nullability. -/
theorem readType_tokens
    {scope : Scope} (imports : scope.NamesImports) :
    readType scope type.tokens =
      some (type.text scope, type.acceptsNull scope) := by
  have kept : (type.members.map (·.text scope)).filter (· != "null") =
      (type.members.filter fun m => !m.isNull scope).map (·.text scope) := by
    rw [List.filter_map]
    congr 1
    refine List.filter_congr fun m _ => ?_
    rw [TypeMember.isNull_eq]
    rfl
  have nulls : (type.members.map (·.text scope)).contains "null" =
      type.members.any (·.isNull scope) := by
    rw [List.contains_eq_any_beq, List.any_map]
    congr 1
    funext m
    rw [TypeMember.isNull_eq, Function.comp_apply, Bool.eq_iff_iff,
      beq_iff_eq, beq_iff_eq]
    exact eq_comm
  rw [readType, typeMembers_tokens type imports, kept, nulls,
    contains_question, List.isEmpty_map, text, acceptsNull]
  by_cases allNull : (type.members.filter fun m => !m.isNull scope).isEmpty
  · -- the first member is one of those that are dropped
    have firstNull : type.first.isNull scope = true := by
      rw [List.isEmpty_iff, List.filter_eq_nil_iff] at allNull
      simpa using allNull type.first List.mem_cons_self
    have someNull : type.members.any (·.isNull scope) = true := by
      rw [members, List.any_cons, firstNull, Bool.true_or]
    rw [if_pos allNull, if_pos allNull, someNull, Bool.or_true, if_pos rfl]
  · rw [if_neg allNull, if_neg allNull]

end WrittenType

end Grammar

end BusReference.Php
