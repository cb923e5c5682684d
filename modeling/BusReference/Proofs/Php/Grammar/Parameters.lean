import BusReference.Proofs.Php.Grammar.Types

/-!
# Parameters as they are written

A written parameter has attributes, modifiers, a type, the marks of references
and variadic parameters, a variable and a default value, most of which may be
missing.  The main statement is that a list of written parameters is read as
exactly their meanings, in their order.
-/

namespace BusReference.Php.Grammar

open Signature
  (isModifier parameter readDefault readParameter readParameterAfter
    readParameters readType startsVariable)

/-- Tokens that close the brackets of the given pairs. -/
abbrev Nested (pairs : List BracketPair) :=
  { ts : List Token // Balanced pairs ts }

/-- A group of attributes of the given content. -/
def attributeGroup (content : Nested BracketPair.all) : List Token :=
  .attributeOpen :: (content.1 ++ [.punct ']'])

/-! ## Parameters -/

/-- A written parameter. -/
structure WrittenParameter where
  attributes : List (Nested BracketPair.all)
  modifiers : List { word : String // isModifier (.name word) = true }
  type : Option WrittenType
  byReference : Bool
  variadic : Bool
  name : String
  initializer : Option { ts : List Token // IsItem ts }

namespace WrittenParameter

def typeTokens (p : WrittenParameter) : List Token :=
  (p.type.map (·.tokens)).getD []

/-- The type and what stands before it. -/
def headTokens (p : WrittenParameter) : List Token :=
  p.attributes.flatMap attributeGroup ++
    (p.modifiers.map (Token.name ·.1) ++ p.typeTokens)

def initializerTokens (p : WrittenParameter) : List Token :=
  (p.initializer.map (.punct '=' :: ·.1)).getD []

/-- The variable with its marks and its default value. -/
def variableTokens (p : WrittenParameter) : List Token :=
  optionalToken p.byReference (.punct '&') ++
    (optionalToken p.variadic .ellipsis ++
      .variable p.name :: p.initializerTokens)

def tokens (p : WrittenParameter) : List Token :=
  p.headTokens ++ p.variableTokens

/-- The value that the tokens of the initializer stand for. -/
def defaultValue (p : WrittenParameter) : Option DefaultValue :=
  p.initializer.map fun ts => DefaultValue.parse (Token.join ts.1)

/-- What a written parameter declares. -/
def meaning (scope : Scope) (p : WrittenParameter) : Parameter where
  name := p.name
  declaredType := p.type.map (·.text scope)
  nullable :=
    p.type.any (·.acceptsNull scope) || p.defaultValue.any (· == .null)
  variadic := p.variadic
  defaultValue := p.defaultValue

end WrittenParameter

/-! ## Reading the type of a parameter -/

section Steps

variable
    {scope : Scope} {before : List Token} {variadic : Bool}
    (rest : List Token)

theorem readParameterAfter_name (text : String) :
    readParameterAfter scope before variadic (.name text :: rest) =
      if before.isEmpty && isModifier (.name text) then
        readParameterAfter scope before variadic rest
      else readParameterAfter scope (.name text :: before) variadic rest := by
  rw [readParameterAfter]
  all_goals simp

theorem readParameterAfter_punct (c : Char) :
    readParameterAfter scope before variadic (.punct c :: rest) =
      if c = '&' ∧ startsVariable rest then
        readParameterAfter scope before variadic rest
      else readParameterAfter scope (.punct c :: before) variadic rest := by
  rw [readParameterAfter]
  all_goals simp [isModifier, Token.isKeyword]

end Steps

/-- A reader of a parameter takes the tokens for a part of its type. -/
def BelongsToType (ts : List Token) : Prop :=
  ∀ (scope : Scope) (before : List Token) (variadic : Bool)
    (rest : List Token),
    readParameterAfter scope before variadic (ts ++ rest) =
      readParameterAfter scope (ts.reverse ++ before) variadic rest

namespace BelongsToType

variable {ts us : List Token}

theorem nil : BelongsToType [] :=
  fun _ _ _ _ => rfl

theorem append (first : BelongsToType ts) (second : BelongsToType us) :
    BelongsToType (ts ++ us) := by
  intro scope before variadic rest
  rw [List.append_assoc, first, second, List.reverse_append,
    List.append_assoc]

theorem name (n : Reference) : BelongsToType [.name n.text] := by
  intro scope before variadic rest
  have noModifier : isModifier (.name n.text) = false := by
    have unreserved := n.unreserved
    simp only [reservedWords, List.mem_cons, not_or] at unreserved
    simp [isModifier, Token.isKeyword, unreserved]
  rw [List.singleton_append, readParameterAfter_name, noModifier,
    Bool.and_false]
  rfl

theorem mark {c : Char} (apart : c ≠ '&') : BelongsToType [.punct c] := by
  intro scope before variadic rest
  rw [List.singleton_append, readParameterAfter_punct,
    if_neg fun both => apart both.1]
  rfl

/-- An ampersand before a name is no mark of a reference. -/
theorem ampersand {n : Reference}
    (followed : BelongsToType (.name n.text :: ts)) :
    BelongsToType (.punct '&' :: .name n.text :: ts) := by
  intro scope before variadic rest
  have notVariable :
      ¬ ('&' = '&' ∧ startsVariable ((.name n.text :: ts) ++ rest)) := by
    simp [startsVariable]
  rw [List.cons_append, readParameterAfter_punct, if_neg notVariable,
    followed]
  simp

theorem nameList (first : Reference) (others : List Reference) :
    BelongsToType (Grammar.nameList '&' (first :: others)) := by
  induction others generalizing first with
  | nil => exact name first
  | cons second others ih =>
      have later : Grammar.nameList '&' (second :: others) =
          .name second.text ::
            (Grammar.nameList '&' (second :: others)).tail := by
        cases others with
        | nil => rfl
        | cons third others => rw [nameList_cons_cons]; rfl
      have followed := ih second
      rw [nameList_cons_cons]
      rw [later] at followed ⊢
      exact (name first).append (ampersand followed)

theorem member (m : TypeMember) : BelongsToType m.tokens := by
  cases m with
  | name n => exact name n
  | intersection parenthesised first second others =>
      have names := nameList first (second :: others)
      rw [TypeMember.tokens]
      split
      · exact (mark (by decide)).append (names.append (mark (by decide)))
      · exact names

theorem type (t : WrittenType) : BelongsToType t.tokens := by
  have marked : BelongsToType t.mark :=
    optionalToken_cases nil (mark (by decide))
  refine marked.append
    (Text.intercalate_induction nil append (mark (by decide)) ?_)
  intro ts listed
  obtain ⟨m, -, rfl⟩ := List.mem_map.mp listed
  exact member m

end BelongsToType

/-! ## Reading a parameter -/

namespace WrittenParameter

variable {scope : Scope} {before : List Token} {variadic : Bool}

theorem readParameterAfter_attributes
    (attributes : List (Nested BracketPair.all)) (rest : List Token) :
    readParameterAfter scope before variadic
        (attributes.flatMap attributeGroup ++ rest) =
      readParameterAfter scope before variadic rest := by
  induction attributes with
  | nil => rfl
  | cons content attributes ih =>
      rw [List.flatMap_cons, List.append_assoc, attributeGroup,
        List.cons_append, readParameterAfter, List.append_assoc,
        Attribute.skipGroup_append content.2]
      simpa [Attribute.skipGroup] using ih

/-- As long as no type is read, keywords of promotion are passed over. -/
theorem readParameterAfter_modifiers
    (modifiers : List { word : String // isModifier (.name word) = true })
    (rest : List Token) :
    readParameterAfter scope [] variadic
        (modifiers.map (Token.name ·.1) ++ rest) =
      readParameterAfter scope [] variadic rest := by
  induction modifiers with
  | nil => rfl
  | cons word modifiers ih =>
      rw [List.map_cons, List.cons_append, readParameterAfter_name, word.2]
      exact ih

variable (p : WrittenParameter)

theorem readParameterAfter_headTokens (rest : List Token) :
    readParameterAfter scope [] variadic (p.headTokens ++ rest) =
      readParameterAfter scope p.typeTokens.reverse variadic rest := by
  have typed : BelongsToType p.typeTokens := by
    rw [typeTokens]
    cases p.type with
    | none => exact .nil
    | some type => exact .type type
  rw [headTokens, List.append_assoc, List.append_assoc,
    readParameterAfter_attributes, readParameterAfter_modifiers, typed,
    List.append_nil]

theorem readParameterAfter_variableTokens :
    readParameterAfter scope before false p.variableTokens =
      some (parameter scope before.reverse p.variadic p.name
        p.defaultValue) := by
  have initialized : readDefault p.initializerTokens = p.defaultValue := by
    rw [initializerTokens, defaultValue]
    cases p.initializer <;> rfl
  have fromVariable : ∀ variadic : Bool,
      readParameterAfter scope before variadic
          (.variable p.name :: p.initializerTokens) =
        some (parameter scope before.reverse variadic p.name
          p.defaultValue) := by
    intro variadic
    rw [readParameterAfter, initialized]
  have fromDots :
      readParameterAfter scope before false
          (optionalToken p.variadic .ellipsis ++
            .variable p.name :: p.initializerTokens) =
        some (parameter scope before.reverse p.variadic p.name
          p.defaultValue) := by
    cases p.variadic with
    | false => exact fromVariable false
    | true =>
        rw [optionalToken, if_pos rfl, List.singleton_append,
          readParameterAfter]
        exact fromVariable true
  have follows : startsVariable
      (optionalToken p.variadic .ellipsis ++
        .variable p.name :: p.initializerTokens) = true := by
    cases p.variadic <;> rfl
  rw [variableTokens]
  cases p.byReference with
  | false => exact fromDots
  | true =>
      rw [optionalToken, if_pos rfl, List.singleton_append,
        readParameterAfter_punct, if_pos ⟨rfl, follows⟩]
      exact fromDots

theorem parameter_eq_meaning (imports : scope.NamesImports) :
    parameter scope p.typeTokens p.variadic p.name p.defaultValue =
      p.meaning scope := by
  have untyped : readType scope [] = none := rfl
  unfold Signature.parameter
  rw [meaning, typeTokens]
  cases p.type with
  | none =>
      rw [Option.map_none, Option.getD_none, untyped]
      cases p.defaultValue <;> rfl
  | some type =>
      rw [Option.map_some, Option.getD_some, type.readType_tokens imports]
      cases p.defaultValue <;> simp [Parameter.withDefault]

theorem readParameter_tokens (imports : scope.NamesImports) :
    readParameter scope p.tokens = some (p.meaning scope) := by
  rw [readParameter, tokens, readParameterAfter_headTokens,
    readParameterAfter_variableTokens, List.reverse_reverse,
    parameter_eq_meaning p imports]

end WrittenParameter

/-! ## Lists of parameters -/

theorem isItem_attributeGroup (content : Nested BracketPair.all) :
    IsItem (attributeGroup content) :=
  .group (BracketPair.mem_all_iff.mpr (Or.inr (Or.inr (Or.inl rfl))))
    content.2 .nil

theorem isItem_nameList (names : List Reference) :
    IsItem (nameList '&' names) := by
  refine .of_plain fun t member => ?_
  rcases mem_nameList member with rfl | ⟨n, -, rfl⟩
  · decide
  · exact isPlain_of_isWord rfl

theorem TypeMember.isItem_tokens (m : TypeMember) : IsItem m.tokens := by
  cases m with
  | name n => exact isItem_nameList [n]
  | intersection parenthesised first second others =>
      have names := isItem_nameList (first :: second :: others)
      rw [tokens]
      split
      · exact .group (BracketPair.mem_all_iff.mpr (Or.inl rfl))
          names.balanced .nil
      · exact names

theorem WrittenType.isItem_tokens (type : WrittenType) :
    IsItem type.tokens := by
  have marked : IsItem type.mark :=
    optionalToken_cases .nil (.plain (by decide) (by decide) .nil)
  have bar : IsItem [Token.punct '|'] :=
    .plain (by decide) (by decide) .nil
  refine marked.append (Text.intercalate_induction .nil .append bar ?_)
  intro ts listed
  obtain ⟨m, -, rfl⟩ := List.mem_map.mp listed
  exact m.isItem_tokens

namespace WrittenParameter

variable (p : WrittenParameter)

theorem isItem_headTokens : IsItem p.headTokens := by
  have attributes : IsItem (p.attributes.flatMap attributeGroup) := by
    refine IsItem.flatten fun ts listed => ?_
    obtain ⟨content, -, rfl⟩ := List.mem_map.mp listed
    exact isItem_attributeGroup content
  have modifiers : IsItem (p.modifiers.map (Token.name ·.1)) := by
    refine .of_plain fun t member => ?_
    obtain ⟨word, -, rfl⟩ := List.mem_map.mp member
    exact isPlain_of_isWord rfl
  have typed : IsItem p.typeTokens := by
    rw [typeTokens]
    cases p.type with
    | none => exact .nil
    | some type => exact type.isItem_tokens
  exact attributes.append (modifiers.append typed)

theorem isItem_variableTokens : IsItem p.variableTokens := by
  have reference : IsItem (optionalToken p.byReference (.punct '&')) :=
    optionalToken_cases .nil (.plain (by decide) (by decide) .nil)
  have dots : IsItem (optionalToken p.variadic .ellipsis) :=
    optionalToken_cases .nil (.plain (by decide) (by decide) .nil)
  have initialized : IsItem p.initializerTokens := by
    rw [initializerTokens]
    cases p.initializer with
    | none => exact .nil
    | some ts => exact .plain (by decide) (by decide) ts.2
  obtain ⟨noBracket, noComma⟩ :=
    isPlain_of_isWord (t := .variable p.name) rfl
  exact reference.append
    (dots.append (.plain noBracket noComma initialized))

theorem isItem_tokens : IsItem p.tokens :=
  p.isItem_headTokens.append p.isItem_variableTokens

end WrittenParameter

/-- Parameters with commas between them, and perhaps one after the last. -/
structure ParameterList where
  parameters : List WrittenParameter
  trailing : Bool

namespace ParameterList

def tokens (list : ParameterList) : List Token :=
  commaList (list.parameters.map (·.tokens)) ++
    optionalToken list.trailing (.punct ',')

variable (list : ParameterList)

theorem isItem_of_mem {item : List Token}
    (listed : item ∈ list.parameters.map (·.tokens)) :
    IsItem item := by
  obtain ⟨p, -, rfl⟩ := List.mem_map.mp listed
  exact p.isItem_tokens

theorem balanced_tokens : Balanced BracketPair.all list.tokens := by
  have comma : Balanced BracketPair.all [.punct ','] :=
    .plain (by decide) .nil
  have listed : Balanced BracketPair.all
      (commaList (list.parameters.map (·.tokens))) :=
    Text.intercalate_induction .nil .append comma
      fun item member => (list.isItem_of_mem member).balanced
  exact listed.append (optionalToken_cases .nil comma)

/-- A list of parameters is read as their meanings, in their order. -/
theorem readParameters_tokens
    {scope : Scope} (imports : scope.NamesImports) :
    readParameters scope list.tokens =
      list.parameters.map (·.meaning scope) := by
  have empty : readParameter scope [] = none := by
    rw [readParameter, readParameterAfter]
  have separated : ∃ others : List (List Token),
      listItems 0 (optionalToken list.trailing (.punct ',')) =
          [] :: others ∧
        others.filterMap (readParameter scope) = [] := by
    cases list.trailing with
    | false => exact ⟨[], rfl, rfl⟩
    | true => exact ⟨[[]], rfl, by simp [empty]⟩
  obtain ⟨others, trailing, noParameter⟩ := separated
  rw [readParameters, tokens]
  cases written : list.parameters with
  | nil =>
      rw [List.map_nil, commaList_nil, List.nil_append, trailing,
        List.filterMap_cons_none empty, noParameter, List.map_nil]
  | cons p ps =>
      have nonempty : (p :: ps).map WrittenParameter.tokens ≠ [] := by simp
      have each : ∀ item ∈ (p :: ps).map (·.tokens), IsItem item := by
        rw [← written]
        exact fun item => list.isItem_of_mem
      have read : readParameter scope ∘ WrittenParameter.tokens =
          fun p => some (p.meaning scope) :=
        funext fun p => p.readParameter_tokens imports
      rw [listItems_commaList nonempty each trailing,
        List.filterMap_append, noParameter, List.append_nil,
        List.filterMap_map, read]
      exact congrFun List.filterMap_eq_map _

end ParameterList

end BusReference.Php.Grammar
