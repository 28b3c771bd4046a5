import Pdl.Token.Kind

/-!
# The rules of the grammar

The grammar has forty-six rules, numbered from one.  Each has a nonterminal on
its left and a list of symbols on its right; the terminals are kinds of
tokens.  The written form of a rule, as in `B → if ( E ) S`, is printed from
these two sides.

Four nonterminals are lists that end on the right in an empty rule: the
program, the body of a block, further parameters and further arguments.
Comparison and addition associate to the left.
-/

namespace Pdl

/-! ## Symbols -/

/-- A nonterminal of the grammar. -/
inductive Nonterminal where
  /-- The whole input, with its end. -/
  | input
  /-- A list of statements and functions. -/
  | program
  /-- A statement. -/
  | statement
  /-- The type of a variable. -/
  | type
  /-- A function. -/
  | function
  /-- A function up to its parameters. -/
  | head
  /-- A function up to the type of its result. -/
  | name
  /-- The type of a result. -/
  | result
  /-- The parameters of a function. -/
  | parameters
  /-- Further parameters. -/
  | moreParameters
  /-- The statements of a block. -/
  | body
  /-- An expression. -/
  | expression
  /-- An operand of a comparison. -/
  | sum
  /-- An operand of an addition. -/
  | operand
  /-- An operand of a negation. -/
  | primary
  /-- A statement without parts that are statements. -/
  | simple
  /-- The arguments of a call. -/
  | arguments
  /-- Further arguments. -/
  | moreArguments
  /-- The value that a function returns. -/
  | returned
deriving Repr, DecidableEq

/-- The name of a nonterminal in the written rules. -/
def Nonterminal.text : Nonterminal → String
  | input => "P'"
  | program => "P"
  | statement => "B"
  | type => "T"
  | function => "F"
  | head => "F1"
  | name => "F2"
  | result => "H"
  | parameters => "A"
  | moreParameters => "K"
  | body => "C"
  | expression => "E"
  | sum => "U"
  | operand => "V"
  | primary => "W"
  | simple => "S"
  | arguments => "L"
  | moreArguments => "Q"
  | returned => "Z"

/-- A symbol of the grammar. -/
inductive GrammarSymbol where
  /-- A kind of tokens. -/
  | terminal (k : TokenKind)
  /-- A nonterminal. -/
  | nonterminal (n : Nonterminal)
deriving Repr, DecidableEq

/-- The name of a kind of tokens in the written rules. -/
def TokenKind.terminalText : TokenKind → String
  | identifier => "id"
  | integer => "entero"
  | string => "cadena"
  | endOfInput => "EOF"
  | keyword k => k.spelling
  | operator o => o.spelling
  | punctuation p => p.spelling
  | k => k.name

/-- The name of a symbol in the written rules. -/
def GrammarSymbol.text : GrammarSymbol → String
  | terminal k => k.terminalText
  | nonterminal n => n.text

/-! ## Rules -/

/-- A rule of the grammar. -/
inductive Rule where
  | accept
  | programStatement | programFunction | programEnd
  | ifThen | whileDo | declare | declareInit | simpleStatement
  | typeInt | typeBoolean | typeString
  | function | functionHead | functionName | resultType | resultVoid
  | parameters | parametersVoid | parametersMore | parametersEnd
  | bodyStatement | bodyEnd
  | equal | equalOperand | add | addOperand | not | notOperand
  | variable | parenthesised | call | integer | string
  | assign | addAssign | callStatement | put | get | return
  | arguments | argumentsNone | argumentsMore | argumentsEnd
  | returnValue | returnNothing
deriving Repr, DecidableEq

namespace Rule

/-- All rules in the order of their numbers. -/
def all : List Rule :=
  [accept, programStatement, programFunction, programEnd, ifThen, whileDo, declare, declareInit,
    simpleStatement, typeInt, typeBoolean, typeString, function, functionHead, functionName,
    resultType, resultVoid, parameters, parametersVoid, parametersMore, parametersEnd,
    bodyStatement, bodyEnd, equal, equalOperand, add, addOperand, not, notOperand, .variable,
    parenthesised, call, integer, string, assign, addAssign, callStatement, put, get, .return,
    arguments, argumentsNone, argumentsMore, argumentsEnd, returnValue, returnNothing]

/-- The number of a rule, from one. -/
def number (r : Rule) : Nat := all.idxOf r + 1

/-- The rule with a number. -/
def ofNumber? : Nat → Option Rule
  | 0 => none
  | n + 1 => all[n]?

section Sides

open GrammarSymbol TokenKind

/-- A reserved word on the right of a rule. -/
private def word (k : Keyword) : GrammarSymbol := terminal (keyword k)

/-- An operator on the right of a rule. -/
private def op (o : Operator) : GrammarSymbol := terminal (operator o)

/-- A punctuation mark on the right of a rule. -/
private def mark (p : Punctuation) : GrammarSymbol := terminal (punctuation p)

/-- The nonterminal on the left. -/
def lhs : Rule → Nonterminal
  | accept => .input
  | programStatement | programFunction | programEnd => .program
  | ifThen | whileDo | declare | declareInit | simpleStatement => .statement
  | typeInt | typeBoolean | typeString => .type
  | function => .function
  | functionHead => .head
  | functionName => .name
  | resultType | resultVoid => .result
  | parameters | parametersVoid => .parameters
  | parametersMore | parametersEnd => .moreParameters
  | bodyStatement | bodyEnd => .body
  | equal | equalOperand => .expression
  | add | addOperand => .sum
  | not | notOperand => .operand
  | .variable | parenthesised | call | integer | string => .primary
  | assign | addAssign | callStatement | put | get | .return => .simple
  | arguments | argumentsNone => .arguments
  | argumentsMore | argumentsEnd => .moreArguments
  | returnValue | returnNothing => .returned

/-- The symbols on the right. -/
def rhs : Rule → List GrammarSymbol
  | accept => [nonterminal .program, terminal endOfInput]
  | programStatement => [nonterminal .statement, nonterminal .program]
  | programFunction => [nonterminal .function, nonterminal .program]
  | programEnd => []
  | ifThen =>
      [word .if, mark .openParen, nonterminal .expression, mark .closeParen, nonterminal .simple]
  | whileDo =>
      [word .while, mark .openParen, nonterminal .expression, mark .closeParen, mark .openBrace,
        nonterminal .body, mark .closeBrace]
  | declare => [word .let, terminal identifier, nonterminal .type, mark .semicolon]
  | declareInit =>
      [word .let, terminal identifier, nonterminal .type, op .assign, nonterminal .expression,
        mark .semicolon]
  | simpleStatement => [nonterminal .simple]
  | typeInt => [word .int]
  | typeBoolean => [word .boolean]
  | typeString => [word .string]
  | function => [nonterminal .head, mark .openBrace, nonterminal .body, mark .closeBrace]
  | functionHead =>
      [nonterminal .name, mark .openParen, nonterminal .parameters, mark .closeParen]
  | functionName => [word .function, terminal identifier, nonterminal .result]
  | resultType => [nonterminal .type]
  | resultVoid => [word .void]
  | parameters => [nonterminal .type, terminal identifier, nonterminal .moreParameters]
  | parametersVoid => [word .void]
  | parametersMore =>
      [mark .comma, nonterminal .type, terminal identifier, nonterminal .moreParameters]
  | parametersEnd => []
  | bodyStatement => [nonterminal .statement, nonterminal .body]
  | bodyEnd => []
  | equal => [nonterminal .expression, op .equal, nonterminal .sum]
  | equalOperand => [nonterminal .sum]
  | add => [nonterminal .sum, op .plus, nonterminal .operand]
  | addOperand => [nonterminal .operand]
  | not => [op .not, nonterminal .primary]
  | notOperand => [nonterminal .primary]
  | .variable => [terminal identifier]
  | parenthesised => [mark .openParen, nonterminal .expression, mark .closeParen]
  | call =>
      [terminal identifier, mark .openParen, nonterminal .arguments, mark .closeParen]
  | integer => [terminal TokenKind.integer]
  | string => [terminal TokenKind.string]
  | assign => [terminal identifier, op .assign, nonterminal .expression, mark .semicolon]
  | addAssign => [terminal identifier, op .plusAssign, nonterminal .expression, mark .semicolon]
  | callStatement =>
      [terminal identifier, mark .openParen, nonterminal .arguments, mark .closeParen,
        mark .semicolon]
  | put => [word .put, nonterminal .expression, mark .semicolon]
  | get => [word .get, terminal identifier, mark .semicolon]
  | .return => [word .return, nonterminal .returned, mark .semicolon]
  | arguments => [nonterminal .expression, nonterminal .moreArguments]
  | argumentsNone => []
  | argumentsMore => [mark .comma, nonterminal .expression, nonterminal .moreArguments]
  | argumentsEnd => []
  | returnValue => [nonterminal .expression]
  | returnNothing => []

end Sides

/-- The written form of a rule; an empty right side is `λ`. -/
def text (r : Rule) : String :=
  r.lhs.text ++ " → " ++
    match r.rhs with
    | [] => "λ"
    | symbols => String.intercalate " " (symbols.map GrammarSymbol.text)

example : (whileDo.text, whileDo.number) = ("B → while ( E ) \x7b C \x7d", 6) := by
  decide +kernel
example : returnNothing.text = "Z → λ" ∧ returnNothing.number = 46 := by decide +kernel

end Rule

end Pdl
