import BusReference.Php.Attribute
import BusReference.Php.Bracket

/-!
# Types and parameters

The declared types of parameters and of return values, and the parameters of a method.
-/

namespace BusReference.Php.Signature

/-- What a token adds to the text of a member of a union type. -/
def memberText (scope : Scope) : Token → String
  | .name name => scope.resolveType name
  | .punct '&' => "&"
  | .punct '(' => "("
  | .punct ')' => ")"
  | _ => ""

/-- The members of a union type with their names resolved; empty ones are left out. -/
def typeMembers (scope : Scope) (ts : List Token) : List String :=
  ((Text.Pieces.splitOn (.punct '|') ts).map fun member =>
    String.join (member.map (memberText scope))).filter (· != "")

/-- A declared type without its `null` members, and whether it accepts null. A type of nothing but
`null` members is kept as `null`; no type at all is none. -/
def readType (scope : Scope) (ts : List Token) : Option (String × Bool) :=
  let members := typeMembers scope ts
  let kept := members.filter (· != "null")
  let nullable := ts.contains (.punct '?') || members.contains "null"
  if kept.isEmpty then if nullable then some ("null", true) else none
  else some ("|".intercalate kept, nullable)

/-- The keywords that may stand before the type of a promoted constructor parameter. -/
def isModifier (t : Token) : Bool :=
  ["public", "protected", "private", "readonly"].any t.isKeyword

/-- Whether the tokens go on with a variable or with the dots of a variadic one, so that an
ampersand before them passes by reference. -/
def startsVariable (ts : List Token) : Bool :=
  match ts with
  | .variable _ :: _ | .ellipsis :: _ => true
  | _ => false

/-- The default value after the variable of a parameter, if there is one. -/
def readDefault (ts : List Token) : Option DefaultValue :=
  match ts with
  | .punct '=' :: value => some (DefaultValue.parse (Token.join value))
  | _ => none

/-- The parameter of a name that follows the given tokens of a type. -/
def parameter (scope : Scope) (typeTokens : List Token) (variadic : Bool) (name : String)
    (defaultValue : Option DefaultValue) : Parameter :=
  let p : Parameter :=
    match readType scope typeTokens with
    | some (declaredType, nullable) =>
      { name, declaredType := some declaredType, nullable, variadic }
    | none => { name, variadic }
  match defaultValue with
  | some value => p.withDefault value
  | none => p

/-- Reads a parameter of which the given tokens of the type, newest first, are read already. An
item without a variable is no parameter. -/
def readParameterAfter (scope : Scope) (typeTokens : List Token) (variadic : Bool) :
    List Token → Option Parameter
  | [] => none
  | .attributeOpen :: ts =>
    readParameterAfter scope typeTokens variadic (Attribute.skipGroup 0 ts)
  | .ellipsis :: ts => readParameterAfter scope typeTokens true ts
  | .variable name :: ts =>
    some (parameter scope typeTokens.reverse variadic name (readDefault ts))
  | t :: ts =>
    if t = .punct '&' ∧ startsVariable ts then readParameterAfter scope typeTokens variadic ts
    else if typeTokens.isEmpty && isModifier t then
      readParameterAfter scope typeTokens variadic ts
    else readParameterAfter scope (t :: typeTokens) variadic ts
  termination_by ts => ts.length
  decreasing_by
    · have := Attribute.skipGroup_length_le 0 ts
      simp only [List.length_cons]
      omega
    all_goals simp

/-- Reads an item of a parameter list. -/
def readParameter (scope : Scope) (ts : List Token) : Option Parameter :=
  readParameterAfter scope [] false ts

/-- Reads what stands between the parentheses of a parameter list. -/
def readParameters (scope : Scope) (ts : List Token) : List Parameter :=
  (listItems 0 ts).filterMap (readParameter scope)

end BusReference.Php.Signature
