import BusReference.Proofs.Php.Grammar.Parameters

/-!
# Methods as they are written

After the keyword, a written method has a name, parameters, perhaps a return
type, and a body or a mere semicolon.  The reader takes exactly these tokens,
so it stops where the next member starts, whatever the body holds.

The main statement is about the parameters: those of a written method are read
with their meanings, in their order.
-/

namespace BusReference.Php.Grammar

open BracketPair (braces)

/-- A method without its parameters; one without a body is abstract. -/
structure WrittenMethod where
  byReference : Bool
  name : String
  returnType : Option WrittenType
  body : Option (Nested [braces])

namespace WrittenMethod

def bodyTokens (m : WrittenMethod) : List Token :=
  match m.body with
  | some inner => .punct '\x7b' :: (inner.1 ++ [.punct '\x7d'])
  | none => [.punct ';']

def returnTokens (m : WrittenMethod) : List Token :=
  (m.returnType.map (.punct ':' :: ·.tokens)).getD []

/-- The tokens of the method after its keyword. -/
def tokens (m : WrittenMethod) (parameters : List Token) : List Token :=
  optionalToken m.byReference (.punct '&') ++
    (.name m.name :: .punct '(' ::
      (parameters ++ .punct ')' :: (m.returnTokens ++ m.bodyTokens)))

variable (m : WrittenMethod) {scope : Scope}

theorem skipMethodBody_bodyTokens (rest : List Token) :
    Body.skipMethodBody m.name (m.bodyTokens ++ rest) = .ok rest := by
  have isPair : IsPair [braces] '\x7b' '\x7d' := by decide
  rw [bodyTokens]
  cases m.body with
  | none => rfl
  | some inner =>
      rw [List.cons_append, List.append_assoc, List.singleton_append,
        Body.skipMethodBody,
        closeBracket_balanced isPair inner.2]
      rfl

/-- The body tells the return type where to end. -/
theorem exists_bodyTokens_eq_cons :
    ∃ t ts, m.bodyTokens = t :: ts ∧ Body.endsType t = true ∧
      t ≠ .punct ':' := by
  rw [bodyTokens]
  cases m.body with
  | none => exact ⟨_, _, rfl, rfl, by decide⟩
  | some inner => exact ⟨_, _, rfl, rfl, by decide⟩

theorem endsType_eq_false_of_mem
    (type : WrittenType) {t : Token} (member : t ∈ type.tokens) :
    Body.endsType t = false := by
  rcases type.cases_of_mem_tokens member with
    ⟨n, rfl⟩ | rfl | rfl | rfl | rfl | rfl
  · simp [Body.endsType]
  all_goals decide

theorem readReturnType_returnTokens
    (imports : scope.NamesImports) (rest : List Token) :
    Body.readReturnType scope
        (m.returnTokens ++ (m.bodyTokens ++ rest)) =
      (m.returnType.map (·.text scope), m.bodyTokens ++ rest) := by
  obtain ⟨t, ts, starts, ends, notColon⟩ := m.exists_bodyTokens_eq_cons
  rw [returnTokens, starts, List.cons_append]
  cases m.returnType with
  | none =>
      rw [Option.map_none, Option.getD_none, List.nil_append,
        Body.readReturnType]
      · rfl
      · intro _ colon
        exact notColon (List.cons.inj colon).1
  | some type =>
      have within : ∀ t ∈ type.tokens, (!Body.endsType t) = true := by
        intro t member
        rw [endsType_eq_false_of_mem type member]
        rfl
      have stops : ¬ (!Body.endsType t) = true := by simp [ends]
      rw [Option.map_some, Option.getD_some, List.cons_append,
        Body.readReturnType, List.takeWhile_append_of_pos within,
        List.dropWhile_append_of_pos within,
        List.takeWhile_cons_of_neg (p := (!Body.endsType ·)) stops,
        List.dropWhile_cons_of_neg (p := (!Body.endsType ·)) stops,
        List.append_nil, type.readType_tokens imports]
      rfl

/-- The reader takes exactly the tokens of the method. -/
theorem readMethod_tokens
    (imports : scope.NamesImports) {pairs : List BracketPair}
    (isPair : IsPair pairs '(' ')') {parameters : List Token}
    (balanced : Balanced pairs parameters)
    (doc : Option String) (rest : List Token) :
    Body.readMethod scope doc (m.tokens parameters ++ rest) =
      .ok ({ name := m.name
             doc
             parameters := Signature.readParameters scope parameters
             returnType := m.returnType.map (·.text scope) }, rest) := by
  have named : ∀ ts : List Token,
      Body.skipIf (· == .punct '&')
          (optionalToken m.byReference (.punct '&') ++
            .name m.name :: ts) =
        .name m.name :: ts := by
    intro ts
    cases m.byReference <;> rfl
  rw [Body.readMethod, tokens, List.append_assoc, List.cons_append, named]
  dsimp only
  rw [List.cons_append, Body.readNamedMethod, List.append_assoc,
    List.cons_append, closeBracket_balanced isPair balanced]
  dsimp only
  rw [List.append_assoc, m.readReturnType_returnTokens imports]
  dsimp only
  rw [skipMethodBody_bodyTokens]

end WrittenMethod

/--
A method is read with the meanings of the parameters that are written in its
list, in their order.
-/
theorem readMethod_parameterList
    {scope : Scope} (imports : scope.NamesImports)
    (method : WrittenMethod) (list : ParameterList)
    (doc : Option String) (rest : List Token) :
    Body.readMethod scope doc (method.tokens list.tokens ++ rest) =
      .ok ({ name := method.name
             doc
             parameters := list.parameters.map (·.meaning scope)
             returnType := method.returnType.map (·.text scope) },
        rest) := by
  rw [method.readMethod_tokens imports (by decide) list.balanced_tokens,
    list.readParameters_tokens imports]

/-- The scope of a file that imports the class of amounts. -/
def billing : Scope where
  namespaceName := "Billing"
  imports := [("Amount", "Money\\Amount")]

/--
A promoted parameter with an attribute, a union type and an array as its
default value, and a variadic one by reference; a comma follows.
-/
def billedParameters : ParameterList where
  parameters :=
    [{ attributes :=
         [⟨[.name "Positive", .punct '(', .literal "'a, b'", .punct ')'],
           .plain (by decide) (.group (List.mem_cons_self)
             (.plain (by decide) .nil) .nil)⟩]
       modifiers :=
         [⟨"private", by decide +kernel⟩, ⟨"ReadOnly", by decide +kernel⟩]
       type := some
         { optional := false
           first := .name { text := "NULL" }
           others :=
             [.intersection true { text := "Countable" }
                { text := "Amount" } [],
              .name { text := "Array" }] }
       byReference := false
       variadic := false
       name := "amounts"
       initializer := some
         ⟨[.punct '[', .number "1", .punct ',', .number "2", .punct ']'],
           .group (List.mem_cons_of_mem _ List.mem_cons_self)
             (.plain (by decide) (.plain (by decide)
               (.plain (by decide) .nil))) .nil⟩ },
     { attributes := []
       modifiers := []
       type := none
       byReference := true
       variadic := true
       name := "rest"
       initializer := none }]
  trailing := true

theorem readMethod_parameterList_billed :
    billing.NamesImports ∧
      Body.readMethod billing none
          (WrittenMethod.tokens ⟨false, "bill", none, none⟩
            billedParameters.tokens) =
        .ok ({ name := "bill"
               parameters :=
                 [{ name := "amounts"
                    declaredType :=
                      some "(Billing\\Countable&Money\\Amount)|array"
                    nullable := true
                    defaultValue := some (.expression "[1,2]") },
                  { name := "rest", variadic := true }] }, []) := by
  have imports : billing.NamesImports := by decide
  refine ⟨imports, ?_⟩
  have read := readMethod_parameterList imports
    ⟨false, "bill", none, none⟩ billedParameters none []
  have meanings : billedParameters.parameters.map (·.meaning billing) =
      [{ name := "amounts"
         declaredType := some "(Billing\\Countable&Money\\Amount)|array"
         nullable := true
         defaultValue := some (.expression "[1,2]") },
       { name := "rest", variadic := true }] := by
    decide +kernel
  rw [List.append_nil, meanings] at read
  exact read

end BusReference.Php.Grammar
