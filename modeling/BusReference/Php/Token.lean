/-!
# PHP tokens

The tokens that matter for reading declarations, each with its spelling. Blanks, ordinary comments
and text outside of PHP tags are no tokens.
-/

namespace BusReference.Php

/-- A token of PHP source text. -/
inductive Token where
  /-- A whole `/** ... */` comment. -/
  | docComment (text : String)
  /-- An identifier or a qualified name, possibly with a leading backslash. -/
  | name (text : String)
  /-- A variable, without its dollar sign. -/
  | variable (name : String)
  /-- A quoted string or a heredoc, with its delimiters. -/
  | literal (text : String)
  | number (text : String)
  /-- The opening `#[` of a group of attributes. -/
  | attributeOpen
  /-- The three dots of a variadic parameter or of unpacking. -/
  | ellipsis
  | punct (c : Char)
  deriving DecidableEq, Repr

namespace Token

/-- The text of a token in a source file. -/
def spelling : Token → String
  | .docComment text => text
  | .name text => text
  | .variable text => "$" ++ text
  | .literal text => text
  | .number text => text
  | .attributeOpen => "#["
  | .ellipsis => "..."
  | .punct c => c.toString

/-- Whether two such tokens in a row need a blank between them. -/
def isWord : Token → Bool
  | .name _ | .variable _ | .literal _ | .number _ => true
  | .docComment _ | .attributeOpen | .ellipsis | .punct _ => false

/-- Whether the token is the given keyword, in any letter case. -/
def isKeyword (keyword : String) : Token → Bool
  | .name text => text.toLower == keyword
  | _ => false

/-- Joins tokens to the text of an expression. A blank stands only between two words, and doc
comments are left out. -/
def joinAfter (afterWord : Bool) : List Token → String
  | [] => ""
  | .docComment _ :: ts => joinAfter afterWord ts
  | t :: ts =>
    (if afterWord && t.isWord then " " else "") ++ t.spelling ++ joinAfter t.isWord ts

/-- The text of an expression that consists of the given tokens. -/
def join (ts : List Token) : String := joinAfter false ts

end Token

end BusReference.Php
