import BusReference.Php.Lexeme

/-!
# Faults of source files

What can be wrong with a source file whose declarations are read, and how a message says it.
-/

namespace BusReference.Php

/-- A reason why the declarations of a source file cannot be read. -/
inductive Fault where
  | lexical (fault : LexicalFault)
  /-- The file ends before the body of the named type opens. -/
  | openDeclaration (name : String)
  /-- The file ends before the body of the named type closes. -/
  | openBody (name : String)
  | noMethodName
  | noParameterList (method : String)
  /-- The file ends before a bracket is closed. -/
  | noCloser (closer : Char)
  | noMethodBody (method : String)
  deriving DecidableEq, Repr

/-- The name of a construct in messages. -/
def Construct.describe : Construct → String
  | .comment => "comment"
  | .string => "string"
  | .heredoc => "heredoc"

/-- The message for a fault, without the place of the file. -/
def Fault.message : Fault → String
  | .lexical fault =>
    "unterminated " ++ fault.construct.describe ++ " starting on line " ++
      String.ofList (Nat.toDigits 10 fault.line)
  | .openDeclaration name => "unterminated declaration of " ++ name
  | .openBody name => "unterminated body of " ++ name
  | .noMethodName => "expected a method name"
  | .noParameterList method => "expected '(' after method " ++ method
  | .noCloser closer => "missing '" ++ closer.toString ++ "'"
  | .noMethodBody method => "expected a body for method " ++ method

end BusReference.Php
