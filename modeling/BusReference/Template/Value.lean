import BusReference.Number.Shortest

/-!
# Values in templates

What a template is given, and what it does with it: taking parts, testing, walking and writing.
A part that is missing is undefined; only a part of what is undefined itself cannot be taken.
-/

namespace BusReference.Template

open BusReference.Number

/-- A value in a template. -/
inductive Value where
  | undefined
  | null
  | bool (b : Bool)
  | int (n : Int)
  | float (x : Binary64)
  | string (s : String)
  | list (items : List Value)
  | map (fields : List (String × Value))
  deriving Repr, Inhabited

namespace Value

/-- The value under a name in a list of fields. -/
def lookup (fields : List (String × Value)) (name : String) : Value :=
  (fields.lookup name).getD undefined

/-- The variable of the given name in a context. -/
def variableIn (context : Value) (name : String) : Value :=
  match context with
  | map fields => lookup fields name
  | _ => undefined

/-- The part of a value under the given name. Nothing has a part if it is undefined. -/
def part? (v : Value) (name : String) : Option Value :=
  match v with
  | undefined => none
  | map fields => some (lookup fields name)
  | _ => some undefined

/-- A value counts as true unless it is undefined, null, false, zero or empty. -/
def isTrue : Value → Bool
  | undefined | null => false
  | bool b => b
  | int n => n != 0
  | float (.finite _ significand _) => significand != 0
  | float (.infinite _) => true
  | string s => !s.isEmpty
  | list items => !items.isEmpty
  | map fields => !fields.isEmpty

/-- What a loop over a value walks through: the items of a list, the names of the fields of a map or
the characters of a string. -/
def elements? : Value → Option (List Value)
  | undefined | null => some []
  | string s => some (s.toList.map fun c => string c.toString)
  | list items => some items
  | map fields => some (fields.map fun field => string field.1)
  | bool _ | int _ | float _ => none

/-- The decimal digits of an integer. -/
def intText (n : Int) : String :=
  Shortest.sign (n < 0) ++ String.ofList (Nat.toDigits 10 n.natAbs)

/-- The text of a floating-point number, which always has a point. -/
def floatText (x : Binary64) : String :=
  let text := Shortest.text x
  match x with
  | .infinite _ => text
  | .finite .. => if text.toList.contains '.' then text else text ++ ".0"

/-- A character as it is written between quotation marks. -/
def quotedCharacter (c : Char) : List Char :=
  if c = '"' then ['\\', '"']
  else if c = '\\' then ['\\', '\\']
  else if c = '\n' then ['\\', 'n']
  else if c = '\r' then ['\\', 'r']
  else if c = '\t' then ['\\', 't']
  else if c = '\x00' then ['\\', '0']
  else if c.toNat < 0x20 ∨ c.toNat = 0x7f then
    ['\\', 'u', '\x7b'] ++ Nat.toDigits 16 c.toNat ++ ['\x7d']
  else [c]

/-- A text between quotation marks. -/
def quotedText (s : String) : String :=
  String.ofList (['"'] ++ s.toList.flatMap quotedCharacter ++ ['"'])

mutual

/-- A value as it is written inside a list or a map. -/
def inner : Value → String
  | undefined => "Undefined"
  | null => "None"
  | bool b => if b then "True" else "False"
  | int n => intText n
  | float x => floatText x
  | string s => quotedText s
  | list items => "[" ++ innerItems items ++ "]"
  | map fields => "\x7b" ++ innerFields fields ++ "\x7d"

/-- The items of a list with commas between them. -/
def innerItems : List Value → String
  | [] => ""
  | [v] => inner v
  | v :: vs => inner v ++ ", " ++ innerItems vs

/-- The fields of a map with commas between them. -/
def innerFields : List (String × Value) → String
  | [] => ""
  | [(name, v)] => quotedText name ++ ": " ++ inner v
  | (name, v) :: fields => quotedText name ++ ": " ++ inner v ++ ", " ++ innerFields fields

end

/-- A value as it is written into a page. -/
def text : Value → String
  | undefined => ""
  | string s => s
  | v => inner v

end Value

end BusReference.Template
