import Pdl.Diagnostic.Basic
import Pdl.Token.Basic

/-!
# Lexical faults

What can be wrong with a lexeme, and how it is reported.  All faults are errors
but one: an identifier that is a reserved word but for the case of its letters
gets a warning.
-/

namespace Pdl

/-- The limits for literals. -/
structure Limits where
  /-- The greatest number of characters between the quotes of a string. -/
  maxStringChars : Nat := 64
  /-- The greatest value of an integer literal. -/
  maxInteger : Nat := 32767
deriving Repr, DecidableEq

/-- What can be wrong with a lexeme. -/
inductive LexicalFault where
  /-- A character of no class. -/
  | invalidCharacter (c : Char)
  /-- A string without its closing quote. -/
  | unterminatedString
  /-- A block comment without its end. -/
  | unterminatedComment
  /-- An integer past the greatest value, `limit`. -/
  | integerTooLarge (limit : Nat)
  /-- A string of `length` characters where `limit` are allowed. -/
  | stringTooLong (limit length : Nat)
  /-- A reserved word `word`, written as `lexeme`. -/
  | keywordCase (word : Keyword) (lexeme : String)
deriving Repr, DecidableEq

namespace LexicalFault

/-- How the fault is reported. -/
def diagnostic (span : Span) : LexicalFault → Diagnostic
  | invalidCharacter c =>
      { level := .error
        message := "invalid character '" ++ String.ofList (quotedChar c) ++ "'"
        span, code := some .invalidCharacter
        helps := if c = '/' then ["comments start with '//' or '/*'"] else [] }
  | unterminatedString =>
      { level := .error
        message := "unterminated string literal"
        span, code := some .unterminatedString
        helps := ["close the string with '\"' before the end of the line"] }
  | unterminatedComment =>
      { level := .error
        message := "unterminated block comment"
        span, code := some .unterminatedComment
        notes := ["the comment runs to the end of the input"] }
  | integerTooLarge limit =>
      { level := .error
        message := "integer literal exceeds the maximum value of " ++ toString limit
        span, code := some .integerTooLarge }
  | stringTooLong limit length =>
      { level := .error
        message := "string literal exceeds " ++ toString limit ++ " characters"
        span, code := some .stringTooLong
        notes := ["this literal has " ++ toString length ++ " characters"] }
  | keywordCase word lexeme =>
      { level := .warning
        message := "reserved word '" ++ word.spelling ++ "' must be written in lowercase"
        span, code := some .keywordCase
        notes := ["'" ++ lexeme ++ "' is treated as an identifier"] }

end LexicalFault

end Pdl
