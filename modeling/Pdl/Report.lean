import Pdl.Analysis
import Pdl.Diagnostic.Listing
import Pdl.Json.Value

/-!
# Reports

Four texts tell what an analysis has found.

* The token report has one line for each token that is neither a blank nor a
  comment.
* The rule report has the letter `A` and then one line for each completed
  rule, with its number.
* The symbol report has three lines for each identifier.
* The JSON report sums up all of it but the tokens, of which it gives the
  number.

Each report goes to a file of its own name (`Analysis.reports`).
-/

namespace Pdl

/-- The token report. -/
def tokenReport (ts : List Token) : String :=
  unlines ((ts.filter (!·.isTrivia)).map Token.text)

/-- The rule report. -/
def ruleReport (t : Trace) : String := unlines ("A" :: t.numbers.map toString)

/-- The lines of one identifier. -/
def SymbolEntry.lines (e : SymbolEntry) : List String :=
  ["* LEXEME : '" ++ e.name ++ "'",
    "  + first seen : line " ++ toString e.firstSeen.line ++ ", column "
      ++ toString e.firstSeen.column,
    "  + occurrences : " ++ toString e.occurrences]

/-- The symbol report. -/
def symbolReport (table : SymbolTable) : String :=
  unlines ("SYMBOL TABLE:" :: table.flatMap SymbolEntry.lines)

/-! ## The JSON report -/

/-- A text, or nothing. -/
def Json.ofText? : Option String → Json
  | some s => .string s
  | none => .null

/-- A diagnostic in the JSON report. -/
def Diagnostic.toJson (d : Diagnostic) : Json :=
  .object [
    ("severity", .string d.level.name),
    ("code", .ofText? (d.code.map Code.text)),
    ("phase", .ofText? ((d.code.bind Code.phase?).map Phase.name)),
    ("message", .string d.message),
    ("line", .number d.span.line),
    ("column", .number d.span.column)]

/-- An identifier in the JSON report. -/
def SymbolEntry.toJson (e : SymbolEntry) : Json :=
  .object [
    ("name", .string e.name),
    ("line", .number e.firstSeen.line),
    ("column", .number e.firstSeen.column),
    ("occurrences", .number e.occurrences)]

/-- A rule in the JSON report. -/
def Rule.toJson (r : Rule) : Json :=
  .object [("number", .number r.number), ("production", .string r.text)]

namespace Analysis

/-- The JSON report as a value. -/
def toJson (a : Analysis) : Json :=
  .object [
    ("token_count", .number a.tokenCount),
    ("errors", .number (errorCount a.diagnostics)),
    ("warnings", .number (warningCount a.diagnostics)),
    ("accepted", .bool a.trace.accepted),
    ("diagnostics", .array (a.diagnostics.map Diagnostic.toJson)),
    ("symbols", .array (a.symbols.map SymbolEntry.toJson)),
    ("rules", .array (a.trace.rules.map Rule.toJson))]

/-- The JSON report. -/
def jsonReport (a : Analysis) : String := a.toJson.text

/-- The files that the reports go to, and their texts. -/
def reports (a : Analysis) : List (String × String) :=
  [("tokens.txt", tokenReport a.tokens),
    ("rules.txt", ruleReport a.trace),
    ("symbols.txt", symbolReport a.symbols),
    ("analysis.json", a.jsonReport)]

end Analysis

example : symbolReport [⟨"x", .start, 2⟩] = "SYMBOL TABLE:\n* LEXEME : 'x'\n"
    ++ "  + first seen : line 1, column 1\n  + occurrences : 2\n" := by decide +kernel

end Pdl
