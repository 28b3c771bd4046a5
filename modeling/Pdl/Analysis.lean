import Pdl.Lexing.Stream
import Pdl.Parsing.Parser

/-!
# The analysis of a text

An analysis cuts a text into tokens and reads them by the grammar.  It never
fails: whatever is wrong becomes a diagnostic.

Both phases report to one log, the lexical one first.  Its diagnostics are then
put in the order of their places.  Those of one place stay in the order in
which they were reported.
-/

namespace Pdl

/-- What an analysis finds. -/
structure Analysis where
  /-- All tokens, blanks and comments included. -/
  tokens : List Token
  /-- What is wrong, in the order of the places. -/
  diagnostics : List Diagnostic
  /-- The identifiers. -/
  symbols : SymbolTable
  /-- The completed rules, and whether the grammar accepts the text. -/
  trace : Trace
deriving Repr, DecidableEq

/-- Diagnostics in the order of the places at which they start. -/
def sortByStart (ds : List Diagnostic) : List Diagnostic :=
  ds.mergeSort fun d e => d.span.start ≤ e.span.start

/-- The analysis of a text. -/
def analyze (limits : Limits) (text : String) : Analysis :=
  let lexed := tokenize limits text
  let (trace, parser) := (Parser.ofTokens lexed.tokens lexed.diagnostics).parse
  { tokens := lexed.tokens
    diagnostics := sortByStart parser.log
    symbols := lexed.symbols
    trace := trace }

namespace Analysis

/-- The number of tokens that are neither blanks nor comments. -/
def tokenCount (a : Analysis) : Nat := a.tokens.countP (!·.isTrivia)

/-- Whether something is wrong with the text. -/
def hasErrors (a : Analysis) : Bool := Pdl.hasErrors a.diagnostics

end Analysis

end Pdl
