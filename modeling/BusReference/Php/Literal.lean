import BusReference.Number.Shortest
import BusReference.Text.Blank
import BusReference.Text.Pieces

/-!
# Default values

The value of a parameter's default expression, as far as the expression is a plain literal, and
the way PHP's `var_export` writes such a value.
-/

namespace BusReference.Php

open BusReference.Number (Binary64)

/-- The value of a default expression. -/
inductive DefaultValue where
  | null
  | bool (value : Bool)
  /-- An integer in the range of 64 bits. -/
  | int (value : Int)
  | float (value : Binary64)
  | string (value : String)
  | emptyArray
  /-- Anything that has to be evaluated, by its text. -/
  | expression (text : String)
  deriving DecidableEq, Repr

namespace DefaultValue

/-- Reads decimal digits, at least one and nothing else. -/
def readDigits (cs : List Char) : Option Nat :=
  if !cs.isEmpty && cs.all Char.isDigit then
    some (cs.foldl (fun n c => 10 * n + (c.toNat - '0'.toNat)) 0)
  else none

/-- Splits off an optional sign. -/
def readSign : List Char → Bool × List Char
  | '-' :: cs => (true, cs)
  | '+' :: cs => (false, cs)
  | cs => (false, cs)

/-- The least integer of 64 bits. -/
def minInt : Int := -0x8000000000000000

/-- The greatest integer of 64 bits. -/
def maxInt : Int := 0x7fffffffffffffff

/-- Reads an integer in the range of 64 bits, with an optional sign. -/
def readInt (cs : List Char) : Option Int :=
  let (negative, digits) := readSign cs
  match readDigits digits with
  | none => none
  | some n =>
    let value : Int := if negative then -n else n
    if minInt ≤ value ∧ value ≤ maxInt then some value else none

/-- Reads the exponent of a decimal number, from its letter on. -/
def readExponent : List Char → Option Int
  | [] => some 0
  | c :: cs =>
    if c = 'e' ∨ c = 'E' then
      let (negative, digits) := readSign cs
      (readDigits digits).map fun n => if negative then -n else n
    else none

/-- Reads a decimal number: a sign, digits with an optional point among or beside them, and an
exponent. Only the digits are needed. -/
def readFloat (cs : List Char) : Option Binary64 :=
  let (negative, unsigned) := readSign cs
  let whole := unsigned.takeWhile Char.isDigit
  let rest := unsigned.drop whole.length
  let (fraction, rest) :=
    match rest with
    | '.' :: rest =>
      let fraction := rest.takeWhile Char.isDigit
      (fraction, rest.drop fraction.length)
    | _ => ([], rest)
  match readDigits (whole ++ fraction), readExponent rest with
  | some digits, some exponent =>
    some (Binary64.ofDecimal negative digits (exponent - fraction.length))
  | _, _ => none

/-- A character that may occur in a decimal number. -/
def isNumeric (c : Char) : Bool :=
  c.isDigit || c == '-' || c == '+' || c == '.' || c == 'e' || c == 'E' || c == '_'

/-- What stands between two quotes of the given kind, if the text starts and ends with them. -/
def unquote (quote : Char) : List Char → Option (List Char)
  | [] => none
  | c :: cs => if c = quote ∧ cs.getLast? = some quote then some cs.dropLast else none

/-- The characters that a single-quoted string stands for. A backslash escapes itself and the
quote. -/
def decodeSingle : List Char → List Char
  | [] => []
  | '\\' :: '\\' :: cs => '\\' :: decodeSingle cs
  | '\\' :: '\'' :: cs => '\'' :: decodeSingle cs
  | c :: cs => c :: decodeSingle cs

/-- The character that a letter after a backslash stands for in a double-quoted string. -/
def escaped? : Char → Option Char
  | 'n' => some '\n'
  | 't' => some '\t'
  | 'r' => some '\r'
  | '\\' => some '\\'
  | '"' => some '"'
  | '$' => some '$'
  | _ => none

/-- The characters that a double-quoted string stands for. A backslash that starts none of the
known escapes is kept. -/
def decodeDouble : List Char → List Char
  | [] => []
  | [c] => [c]
  | c :: d :: cs =>
    match if c = '\\' then escaped? d else none with
    | some e => e :: decodeDouble cs
    | none => c :: decodeDouble (d :: cs)

/-- The characters between the quotes of a single-quoted string with the given value. -/
def encodeSingle : List Char → List Char
  | [] => []
  | c :: cs =>
    if c = '\\' ∨ c = '\'' then '\\' :: c :: encodeSingle cs else c :: encodeSingle cs

/-- The constants and the empty arrays, by their spelling in small letters. -/
def keyword? : String → Option DefaultValue
  | "null" | "\\null" => some .null
  | "true" | "\\true" => some (.bool true)
  | "false" | "\\false" => some (.bool false)
  | "[]" | "array()" => some .emptyArray
  | _ => none

/-- The value of an expression without blanks at its ends, if it is a number. Underscores between
digits are skipped. -/
def number? (cs : List Char) : Option DefaultValue :=
  let plain := cs.filter (· != '_')
  match readInt plain with
  | some n => some (.int n)
  | none => if cs.all isNumeric then (readFloat plain).map .float else none

/-- The value of an expression without blanks at its ends, if it stands in quotes. -/
def quoted? (cs : List Char) : Option DefaultValue :=
  match unquote '\'' cs with
  | some inner => some (.string (String.ofList (decodeSingle inner)))
  | none => (unquote '"' cs).map fun inner => .string (String.ofList (decodeDouble inner))

/-- The value of the text of a default expression. -/
def parse (text : String) : DefaultValue :=
  let cs := Text.Blank.trim text.toList
  let trimmed := String.ofList cs
  match keyword? trimmed.toLower with
  | some value => value
  | none =>
    match number? cs with
    | some value => value
    | none => (quoted? cs).getD (.expression trimmed)

/-- The text of an integer. -/
def intLiteral (n : Int) : String :=
  (if n < 0 then "-" else "") ++ String.ofList (Nat.toDigits 10 n.natAbs)

/-- The text of a number. Whole numbers below `10 ^ 15` keep one decimal place. -/
def floatLiteral (value : Binary64) : String :=
  match value, Number.Shortest.integer? value with
  | .finite negative _ _, some n =>
    if n < 1000000000000000 then Number.Shortest.sign negative ++ intLiteral n ++ ".0"
    else Number.Shortest.text value
  | _, _ => Number.Shortest.text value

/-- The way `var_export` writes a value. -/
def literal : DefaultValue → String
  | .null => "NULL"
  | .bool value => if value then "true" else "false"
  | .int value => intLiteral value
  | .float value => floatLiteral value
  | .string value => "'" ++ String.ofList (encodeSingle value.toList) ++ "'"
  | .emptyArray => "array (\n)"
  | .expression text => text

end DefaultValue

end BusReference.Php
