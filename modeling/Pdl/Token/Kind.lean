/-!
# Kinds of tokens

The lexical vocabulary of the language: its reserved words, operators and
punctuation marks, and the kinds of tokens built from them.

Each reserved word, operator and mark has one spelling, and `ofSpelling?`
finds it again.  A reserved word is one only in lower case.  A word that is
one up to the case of its letters is most likely a slip of the writer, and
`Keyword.miscased?` finds those.
-/

namespace Pdl

/-! ## Reserved words, operators, punctuation -/

/-- A reserved word. -/
inductive Keyword where
  | boolean | function | get | if | int | let | put | return | string | void | while
deriving Repr, DecidableEq

namespace Keyword

/-- All reserved words. -/
def all : List Keyword :=
  [boolean, function, get, .if, int, .let, put, .return, string, void, .while]

/-- How the word is written. -/
def spelling : Keyword → String
  | boolean => "boolean"
  | function => "function"
  | get => "get"
  | .if => "if"
  | int => "int"
  | .let => "let"
  | put => "put"
  | .return => "return"
  | string => "string"
  | void => "void"
  | .while => "while"

/-- The reserved word that is written `s`. -/
def ofSpelling? (s : String) : Option Keyword := all.find? (·.spelling == s)

/-- The reserved word that `s` would be in lower case, if it is not one as it stands.
Only the letters of ASCII have a lower case here.  No reserved word is longer than `function`. -/
def miscased? (s : String) : Option Keyword :=
  if "function".utf8ByteSize < s.utf8ByteSize || (ofSpelling? s).isSome then none
  else ofSpelling? (String.ofList (s.toList.map Char.toLower))

end Keyword

/-- An operator. -/
inductive Operator where
  | plus | plusAssign | assign | equal | not
deriving Repr, DecidableEq

namespace Operator

/-- All operators. -/
def all : List Operator := [plus, plusAssign, assign, equal, not]

/-- How the operator is written. -/
def spelling : Operator → String
  | plus => "+"
  | plusAssign => "+="
  | assign => "="
  | equal => "=="
  | not => "!"

/-- The operator that is written `s`. -/
def ofSpelling? (s : String) : Option Operator := all.find? (·.spelling == s)

end Operator

/-- A punctuation mark. -/
inductive Punctuation where
  | comma | semicolon | openParen | closeParen | openBrace | closeBrace | dot
deriving Repr, DecidableEq

namespace Punctuation

/-- All punctuation marks. -/
def all : List Punctuation :=
  [comma, semicolon, openParen, closeParen, openBrace, closeBrace, dot]

/-- The character of the mark. -/
def char : Punctuation → Char
  | comma => ','
  | semicolon => ';'
  | openParen => '('
  | closeParen => ')'
  | openBrace => '\x7b'
  | closeBrace => '\x7d'
  | dot => '.'

/-- How the mark is written. -/
def spelling (p : Punctuation) : String := String.ofList [p.char]

/-- The mark that is written `c`. -/
def ofChar? (c : Char) : Option Punctuation := all.find? (·.char == c)

end Punctuation

/-! ## Kinds -/

/-- What a token is. -/
inductive TokenKind where
  | identifier
  | keyword (k : Keyword)
  | integer
  | float
  | string
  | operator (o : Operator)
  | punctuation (p : Punctuation)
  | comment
  | whitespace
  | endOfInput
  | invalid
deriving Repr, DecidableEq

namespace TokenKind

/-- The name of the kind in the token report. -/
def name : TokenKind → String
  | identifier => "IDENTIFIER"
  | keyword _ => "KEYWORD"
  | integer => "INTEGER"
  | float => "FLOAT"
  | string => "STRING"
  | operator _ => "OPERATOR"
  | punctuation _ => "PUNCTUATION"
  | comment => "COMMENT"
  | whitespace => "WHITESPACE"
  | endOfInput => "EOF"
  | invalid => "INVALID"

/-- The kind as messages speak of it. -/
def describe : TokenKind → String
  | identifier => "identifier"
  | keyword k => "'" ++ k.spelling ++ "'"
  | integer => "integer literal"
  | float => "float literal"
  | string => "string literal"
  | operator o => "'" ++ o.spelling ++ "'"
  | punctuation p => "'" ++ p.spelling ++ "'"
  | comment => "comment"
  | whitespace => "whitespace"
  | endOfInput => "end of input"
  | invalid => "invalid token"

/-- Whether tokens of this kind only separate others. -/
def isTrivia : TokenKind → Bool
  | comment | whitespace => true
  | _ => false

/-- Whether the grammar sees tokens of this kind. -/
def isSignificant (k : TokenKind) : Bool := !k.isTrivia && k != invalid

/-- The kind of a word: a reserved word in its spelling, else an identifier. -/
def ofWord (s : String) : TokenKind :=
  match Keyword.ofSpelling? s with
  | some k => keyword k
  | none => identifier

end TokenKind

namespace Keyword

theorem ofSpelling?_spelling (k : Keyword) : ofSpelling? k.spelling = some k := by
  cases k <;> decide

theorem spelling_of_ofSpelling? {s : String} {k : Keyword} (h : ofSpelling? s = some k) :
    k.spelling = s := by
  simpa using List.find?_some h

end Keyword

example : Keyword.miscased? "wHiLe" = some .while ∧ Keyword.miscased? "while" = none := by
  decide +kernel

end Pdl
