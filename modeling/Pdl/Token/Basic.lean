import Pdl.Text.Escaped
import Pdl.Text.Position
import Pdl.Token.Kind

/-!
# Tokens

A token is a lexeme of the source text with its kind and its place.  Its line
in the token report is `<KIND, lexeme>`.  Only the lexeme of an invalid token
can hold control characters, an unfinished comment for one, and there they are
escaped, so that each token keeps to one line.
-/

namespace Pdl

/-- A lexeme with its kind and place. -/
structure Token where
  /-- What the token is. -/
  kind : TokenKind
  /-- Its text. -/
  lexeme : String
  /-- Its place. -/
  span : Span
deriving Repr, DecidableEq

namespace Token

/-- Whether the token only separates others. -/
def isTrivia (t : Token) : Bool := t.kind.isTrivia

/-- Whether the grammar sees the token. -/
def isSignificant (t : Token) : Bool := t.kind.isSignificant

/-- The token as messages speak of it. -/
def describe (t : Token) : String :=
  match t.kind with
  | .endOfInput => "end of input"
  | _ => "'" ++ t.lexeme ++ "'"

/-- The token on a line of the token report. -/
def text (t : Token) : String :=
  match t.kind with
  | .endOfInput => "<EOF, >"
  | .invalid => "<INVALID, " ++ lineSafe t.lexeme ++ ">"
  | k => "<" ++ k.name ++ ", " ++ t.lexeme ++ ">"

end Token

example : (Token.mk .identifier "x" .nowhere).text = "<IDENTIFIER, x>" := by decide +kernel

end Pdl
