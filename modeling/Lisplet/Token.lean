import Lisplet.Number
import Lisplet.Text.Quoted

/-!
# Token — the words of the language

A source text is a row of tokens with blanks between them.  Tokens know their value and not where
they stood.
-/

namespace Lisplet

/-- One word of the language. -/
inductive Token where
  /-- The opening parenthesis. -/
  | lparen
  /-- The closing parenthesis. -/
  | rparen
  /-- A string, with its escapes resolved. -/
  | string (value : String)
  /-- A symbol. -/
  | symbol (name : String)
  /-- A number. -/
  | number (value : Float)
  /-- The end of the text. -/
  | finish

namespace Token

/-- Equality by kind and value: the two zeros are one number, and what is no number equals
nothing. -/
def beq : Token → Token → Bool
  | .lparen, .lparen | .rparen, .rparen | .finish, .finish => true
  | .string a, .string b | .symbol a, .symbol b => a == b
  | .number x, .number y => x == y
  | _, _ => false

instance : BEq Token := ⟨beq⟩

/-- The kind of a token, with its value in parentheses if it has one. -/
def label : Token → String
  | .lparen => "LOpen"
  | .rparen => "LClose"
  | .string value => "StrLit(" ++ quote value ++ ")"
  | .symbol name => "Symbol(" ++ quote name ++ ")"
  | .number x => "Number(" ++ numberLabel x ++ ")"
  | .finish => "EOF"

end Token

end Lisplet
