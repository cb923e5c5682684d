import BusReference.Proofs.Php.Default.Expressions
import BusReference.Proofs.Php.Signature.DocComments

/-!
# Default values of parameters

Every default value that is read from a file comes from the tokens after the
sign of a default in an item of a parameter list.  Those are tokens of the file,
so what is known of expressions holds of them: the main statement says which
default values are strings and which expressions of several tokens are kept.
-/

namespace BusReference.Php

open Body
  (BodyTokens MemberTokens MethodTokens TypeTokens declaredMethods)
open Signature
open SourceFile (Origin Pending readDeclaration)

/-! ## Items of parameter lists -/

section Items

variable {depth : Nat} {ts item : List Token}

/-- The first item starts the list, and the others stand inside of it. -/
theorem prefix_and_infix_of_listItems (depth : Nat) (ts : List Token) :
    (∀ item ∈ (listItems depth ts).head?, item <+: ts) ∧
      ∀ item ∈ listItems depth ts, item <:+: ts := by
  induction ts generalizing depth with
  | nil =>
      constructor
      · rintro item ⟨⟩
        exact List.prefix_rfl
      · intro item member
        rw [listItems, List.mem_singleton] at member
        rw [member]
  | cons t ts ih =>
      have wider : ∀ item, item <:+: ts → item <:+: t :: ts := fun item inside =>
        inside.trans (List.suffix_cons t ts).isInfix
      by_cases separates : t = .punct ',' ∧ depth = 0
      · rw [listItems, if_pos separates]
        constructor
        · rintro item ⟨⟩
          exact List.nil_prefix
        · intro item member
          rcases List.mem_cons.mp member with rfl | later
          · exact List.nil_infix
          · exact wider item ((ih 0).2 item later)
      · rw [listItems_cons separates]
        obtain ⟨start, inside⟩ := ih (nesting depth t)
        cases items : listItems (nesting depth t) ts with
        | nil => exact absurd items (listItems_ne_nil _ _)
        | cons first others =>
            rw [items] at start inside
            have longer : t :: first <+: t :: ts :=
              List.cons_prefix_cons.mpr ⟨rfl, start first rfl⟩
            constructor
            · rintro item ⟨⟩
              exact longer
            · intro item member
              rcases List.mem_cons.mp member with rfl | later
              · exact longer.isInfix
              · exact wider item (inside item (List.mem_cons_of_mem _ later))

end Items

namespace Signature

/-- The tokens are the default expression of a parameter of a method: an item of
a parameter list has them after the sign of its default and is read as the
parameter. -/
inductive IsDefault (all : List Token) : Method → Parameter → List Token → Prop
  | item {written : TypeTokens} {lead : List Body.Piece}
      {keyword : Grammar.Keyword "function"} {method : MethodTokens}
      {scope : Scope} {doc : Option String} {head : List HeadPiece}
      {p : Parameter} {ts : List Token}
      (inside : written.tokens <:+: all)
      (listed : .method lead keyword method ∈ written.body.members)
      (among : head.flatMap (·.tokens) ++ .variable p.name :: .punct '=' :: ts ∈
        listItems 0 method.parameters.1)
      (read : readParameter scope
        (head.flatMap (·.tokens) ++ .variable p.name :: .punct '=' :: ts) =
          some p) :
      IsDefault all (method.declared scope doc) p ts

section Defaults

variable {all ts : List Token} {m : Method} {p : Parameter} {scope : Scope}

theorem parameters_infix_tokens
    (lead : List Body.Piece) (keyword : Grammar.Keyword "function")
    (m : MethodTokens) :
    m.parameters.1 <:+: (MemberTokens.method lead keyword m).tokens :=
  ⟨lead.flatMap (·.tokens) ++ .name keyword.1 ::
      (optionalToken m.byReference (.punct '&') ++
        [.name m.name, .punct '(']),
    .punct ')' :: (m.returnTokens ++ m.written.bodyTokens), by
    simp [MemberTokens.tokens, MethodTokens.tokens]⟩

theorem tokens_infix_tokens
    {written : TypeTokens} {member : MemberTokens}
    (listed : member ∈ written.body.members) :
    member.tokens <:+: written.tokens := by
  have inBody : member.tokens <:+: written.body.tokens := by
    obtain ⟨before, after, members⟩ := List.append_of_mem listed
    refine ⟨before.flatMap (·.tokens), after.flatMap (·.tokens) ++
      written.body.trailing.flatMap (·.tokens), ?_⟩
    simp [BodyTokens.tokens, members]
  have inType : written.body.tokens <:+: written.tokens :=
    ⟨written.header.1 ++ [.punct '\x7b'], [.punct '\x7d'], by
      simp [TypeTokens.tokens]⟩
  exact inBody.trans inType

theorem IsDefault.isInfix (default : IsDefault all m p ts) : ts <:+: all := by
  obtain @⟨written, lead, keyword, method, scope, doc, head, p, ts, inside,
    listed, among, -⟩ := default
  have value : ts <:+
      head.flatMap (·.tokens) ++ .variable p.name :: .punct '=' :: ts :=
    ⟨head.flatMap (·.tokens) ++ [.variable p.name, .punct '='], by simp⟩
  have inList := (prefix_and_infix_of_listItems 0 method.parameters.1).2 _ among
  calc ts
    _ <:+: _ := value.isInfix
    _ <:+: method.parameters.1 := inList
    _ <:+: _ := parameters_infix_tokens lead keyword method
    _ <:+: written.tokens := tokens_infix_tokens listed
    _ <:+: all := inside

theorem name_parameter
    (typeTokens : List Token) (variadic : Bool)
    (value : Option DefaultValue) :
    (parameter scope typeTokens variadic name value).name = name := by
  unfold parameter
  cases readType scope typeTokens <;> cases value <;> rfl

theorem exists_default_of_readParameter
    {item : List Token} {value : DefaultValue} (read : readParameter scope item = some p) (has : p.defaultValue = some value) :
    ∃ (head : List HeadPiece) (ts : List Token),
      item = head.flatMap (·.tokens) ++ .variable p.name :: .punct '=' :: ts ∧
        value = DefaultValue.parse (Token.join ts) := by
  rcases exists_head_or_none scope item with
    ⟨head, name, rest, rfl⟩ | nothing
  · rw [readParameter, readParameterAfter_head] at read
    cases read
    rw [defaultValue_parameter] at has
    rw [name_parameter]
    unfold readDefault at has
    split at has
    · rename_i ts
      cases has
      exact ⟨head, ts, rfl, rfl⟩
    · cases has
  · rw [readParameter, (nothing [] false).1] at read
    cases read

/-- The methods of a type are those that its members declare. -/
theorem exists_method_of_mem_declaredMethods
    {doc : Option String} {members : List MemberTokens}
    (declared : m ∈ declaredMethods scope doc members) :
    ∃ lead keyword method inForce, .method lead keyword method ∈ members ∧
      m = method.declared scope inForce := by
  induction members generalizing doc with
  | nil => cases declared
  | cons member members ih =>
      rw [declaredMethods, List.mem_append] at declared
      rcases declared with here | later
      · cases member with
        | method lead keyword method =>
            exact ⟨lead, keyword, method, _, List.mem_cons_self,
              List.mem_singleton.mp here⟩
        | _ => cases here
      · obtain ⟨lead, keyword, method, inForce, listed, same⟩ := ih later
        exact ⟨lead, keyword, method, inForce, List.mem_cons_of_mem _ listed, same⟩

end Defaults

end Signature

/-- A method of a file is a member of a type whose tokens stand there. -/
theorem SourceFile.exists_declaredMethods_of_read
    {source : String} {path : Option Files.FilePath} {types : List Declaration}
    (done : SourceFile.read source path = .ok types)
    {d : Declaration} (declared : d ∈ types) :
    ∃ (all : List Token) (written : TypeTokens) (scope : Scope),
      Token.read source = .ok all ∧ written.tokens <:+: all ∧
        d.methods = declaredMethods scope none written.body.members := by
  rw [SourceFile.read] at done
  cases lexed : Token.read source with
  | error fault =>
      rw [lexed] at done
      cases done
  | ok all =>
      rw [lexed] at done
      obtain ⟨scope, pending, kind, short, us, rest, suffix, read⟩ :=
        exists_place_of_readFrom done d declared
      obtain ⟨written, rfl⟩ := Body.exists_typeTokens read
      obtain ⟨found, again⟩ := Body.exists_readDeclaration_tokens
        { path, source } scope pending kind short written.header
      rw [again written.body rest] at read
      cases read
      exact ⟨all, written, scope, rfl,
        (List.prefix_append _ _).isInfix.trans suffix.isInfix, rfl⟩

/-- Every default value of a parameter has its expression in the file. -/
theorem exists_isDefault_of_read
    {source : String} {path : Option Files.FilePath} {types : List Declaration}
    (done : SourceFile.read source path = .ok types)
    {d : Declaration} (declared : d ∈ types)
    {m : Method} (inType : m ∈ d.methods)
    {p : Parameter} (inList : p ∈ m.parameters)
    {value : DefaultValue} (has : p.defaultValue = some value) :
    ∃ all ts, Token.read source = .ok all ∧ IsDefault all m p ts ∧
      value = DefaultValue.parse (Token.join ts) := by
  obtain ⟨all, written, scope, lexed, inside, methods⟩ :=
    SourceFile.exists_declaredMethods_of_read done declared
  rw [methods] at inType
  obtain ⟨lead, keyword, method, doc, listed, rfl⟩ :=
    exists_method_of_mem_declaredMethods inType
  obtain ⟨item, among, read⟩ := List.mem_filterMap.mp inList
  obtain ⟨head, ts, rfl, parsed⟩ := exists_default_of_readParameter read has
  exact ⟨all, ts, lexed, .item inside listed among read, parsed⟩

namespace DefaultValue

/--
A default value is a string exactly if the first token of its expression, doc
comments aside, is a string and the last one ends with the same quote, be it the
same token or another one.  An expression of several tokens is kept with its
text exactly if it is not enclosed in quotes that way, does not spell a constant
or the empty array or a decimal number, and does not end in a blank.
-/
theorem exists_default_of_read
    {source : String} {path : Option Files.FilePath} {types : List Declaration}
    (done : SourceFile.read source path = .ok types)
    {d : Declaration} (declared : d ∈ types)
    {m : Method} (inType : m ∈ d.methods)
    {p : Parameter} (inList : p ∈ m.parameters)
    {value : DefaultValue} (has : p.defaultValue = some value) :
    ∃ all ts, Token.read source = .ok all ∧ IsDefault all m p ts ∧
      ((∃ s, value = .string s) ↔
        ∃ quote, IsStringQuote quote ∧ IsEnclosed quote (withoutDocs ts)) ∧
      (2 ≤ (withoutDocs ts).length →
        (value = .expression (Token.join ts) ↔ IsEvaluated (withoutDocs ts))) := by
  obtain ⟨all, ts, lexed, default, rfl⟩ :=
    exists_isDefault_of_read done declared inType inList has
  have proper : ∀ t ∈ withoutDocs ts, t.IsProper := by
    intro t member
    obtain ⟨inside, kept⟩ := List.mem_filter.mp member
    apply Token.isProper_of_read lexed (default.isInfix.subset inside)
    rintro text rfl
    cases kept
  exact ⟨all, ts, lexed, default, parse_join_eq_string_iff proper,
    parse_join_eq_expression_iff proper⟩

/-- A class with a default value that has to be evaluated. -/
def concatenating : String :=
  "<?php class A\x7bfunction f($x = B::C . /** d */ 'd')\x7b\x7d\x7d"

/-- The parameter of its only method. -/
def concatenatingParameter : Parameter where
  name := "x"
  defaultValue := some (.expression "B::C.'d'")

def concatenatingMethod : Method where
  name := "f"
  parameters := [concatenatingParameter]

/-- The last token is a string, but the first one is none. -/
theorem exists_default_of_read_concatenating :
    ∃ all ts, Token.read concatenating = .ok all ∧
      IsDefault all concatenatingMethod concatenatingParameter ts ∧
        ¬ ∃ quote, IsStringQuote quote ∧ IsEnclosed quote (withoutDocs ts) := by
  have methods : (SourceFile.read concatenating none).map (·.map (·.methods)) =
      .ok [[concatenatingMethod]] := by
    decide +kernel
  obtain ⟨types, done, single⟩ := exists_of_map_eq_ok methods
  obtain ⟨d, others, rfl, inType, -⟩ := List.map_eq_cons_iff.mp single
  have declared : concatenatingMethod ∈ d.methods := by
    rw [inType]
    exact List.mem_cons_self
  obtain ⟨all, ts, lexed, default, strings, -⟩ := exists_default_of_read done
    List.mem_cons_self declared List.mem_cons_self rfl
  refine ⟨all, ts, lexed, default, ?_⟩
  rw [← strings]
  nofun

/-- Two strings are taken for one, and two numbers for another one. -/
theorem read_concatenated :
    Token.read "<?php 'a' . 'b'" =
        .ok [.literal "'a'", .punct '.', .literal "'b'"] ∧
      (SourceFile.read "<?php class A\x7bfunction f($x = 'a' . 'b', $y = 1 . 2);\x7d"
          none).map (·.flatMap fun d => d.methods.flatMap fun m =>
            m.parameters.map (·.defaultValue)) =
        .ok [some (.string "a'.'b"), some (.float (.ofDecimal false 12 (-1)))] := by
  decide +kernel

end DefaultValue

end BusReference.Php
