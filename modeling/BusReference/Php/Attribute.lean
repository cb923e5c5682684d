import BusReference.Php.Scope

/-!
# Attributes

The groups `#[...]` before a declaration. A group may hold several attributes with arguments; only
the names of the attributes matter.
-/

namespace BusReference.Php.Attribute

/-- Reads a group of attributes after its opening and returns the qualified names in it. `depth`
and `parens` are the numbers of square brackets and of parentheses that are open inside the group;
a name counts if none is, and if it is the first since the start or since a comma. -/
def readGroup (scope : Scope) (depth parens : Nat) (expectsName : Bool) :
    List Token → List String × List Token
  | [] => ([], [])
  | .attributeOpen :: ts => readGroup scope (depth + 1) parens expectsName ts
  | .punct c :: ts =>
    if c = '[' then readGroup scope (depth + 1) parens expectsName ts
    else if c = ']' then
      match depth with
      | 0 => ([], ts)
      | depth + 1 => readGroup scope depth parens expectsName ts
    else if c = '(' then readGroup scope depth (parens + 1) expectsName ts
    else if c = ')' then readGroup scope depth (parens - 1) expectsName ts
    else if c = ',' ∧ depth = 0 ∧ parens = 0 then readGroup scope depth parens true ts
    else readGroup scope depth parens expectsName ts
  | .name name :: ts =>
    if expectsName ∧ depth = 0 ∧ parens = 0 then
      match readGroup scope depth parens false ts with
      | (names, rest) => (scope.resolve name :: names, rest)
    else readGroup scope depth parens expectsName ts
  | _ :: ts => readGroup scope depth parens expectsName ts

/-- The qualified names in a group of attributes, and the tokens after it. -/
def read (scope : Scope) (ts : List Token) : List String × List Token :=
  readGroup scope 0 0 true ts

/-- The tokens after a group of attributes, `depth` brackets being open inside of it. -/
def skipGroup (depth : Nat) : List Token → List Token
  | [] => []
  | .attributeOpen :: ts => skipGroup (depth + 1) ts
  | .punct c :: ts =>
    if c = '[' then skipGroup (depth + 1) ts
    else if c = ']' then
      match depth with
      | 0 => ts
      | depth + 1 => skipGroup depth ts
    else skipGroup depth ts
  | _ :: ts => skipGroup depth ts

/-- Reading a group ends where skipping it ends. -/
theorem readGroup_snd (scope : Scope) (depth parens : Nat) (expectsName : Bool)
    (ts : List Token) : (readGroup scope depth parens expectsName ts).2 = skipGroup depth ts := by
  fun_induction readGroup scope depth parens expectsName ts <;>
    simp_all [skipGroup]

theorem skipGroup_length_le (depth : Nat) (ts : List Token) :
    (skipGroup depth ts).length ≤ ts.length := by
  fun_induction skipGroup depth ts <;> simp_all <;> omega

theorem read_length_le (scope : Scope) (ts : List Token) :
    (read scope ts).2.length ≤ ts.length := by
  rw [read, readGroup_snd]
  exact skipGroup_length_le 0 ts

end BusReference.Php.Attribute
