import Pdl.Proofs.Content
import Pdl.Proofs.DiagnosticOrder
import Pdl.Proofs.Json.RoundTrip
import Pdl.Report

/-!
# The JSON report is read back

What the JSON report sums up is read back from its text as it was: the numbers, the
order of the diagnostics, the identifiers and the rules, and every text character for
character (`read?_jsonReport`).  It is the printed form of a value, and those are read
back (`Json.read?_text`).

The report counts warnings as the diagnostics that are no errors, and those are the
diagnostics of that level (`warningCount_eq`).
-/

namespace Pdl

theorem warningCount_eq (ds : List Diagnostic) :
    warningCount ds = ds.countP (·.level == .warning) := by
  have hlevel : ∀ d ∈ ds, (!d.isError) = true ↔ (d.level == .warning) = true := by
    intro d _
    rw [Diagnostic.isError]
    cases d.level <;> decide
  rw [warningCount, ← List.countP_congr hlevel, errorCount,
    List.length_eq_countP_add_countP Diagnostic.isError]
  simp

theorem Json.ofText?_map {α : Type} (f : α → String) (x : Option α) :
    Json.ofText? (x.map f) = x.elim .null fun a => .string (f a) := by
  cases x <;> rfl

/-- The text of the JSON report holds the summary of the analysis. -/
theorem read?_jsonReport (a : Analysis) :
    Json.read? a.jsonReport = some (.object [
        ("token_count", .number (contentTokens a.tokens).length),
        ("errors", .number (a.diagnostics.countP (·.level == .error))),
        ("warnings", .number (a.diagnostics.countP (·.level == .warning))),
        ("accepted", .bool a.trace.accepted),
        ("diagnostics", .array (a.diagnostics.map fun d => .object [
          ("severity", .string d.level.name),
          ("code", d.code.elim .null fun c => .string c.text),
          ("phase", d.phase?.elim .null fun p => .string p.name),
          ("message", .string d.message),
          ("line", .number d.span.line),
          ("column", .number d.span.column)])),
        ("symbols", .array (a.symbols.map fun e => .object [
          ("name", .string e.name),
          ("line", .number e.firstSeen.line),
          ("column", .number e.firstSeen.column),
          ("occurrences", .number e.occurrences)])),
        ("rules", .array (a.trace.rules.map fun r => .object [
          ("number", .number r.number),
          ("production", .string r.text)]))]) ∧
      a.diagnostics.countP (·.level == .error) + a.diagnostics.countP (·.level == .warning)
        = a.diagnostics.length := by
  have hdiagnostic (d : Diagnostic) : d.toJson = .object [
      ("severity", .string d.level.name),
      ("code", d.code.elim .null fun c => .string c.text),
      ("phase", d.phase?.elim .null fun p => .string p.name),
      ("message", .string d.message),
      ("line", .number d.span.line),
      ("column", .number d.span.column)] := by
    rw [Diagnostic.toJson, Json.ofText?_map, Json.ofText?_map]
    rfl
  have htokens : a.tokenCount = (contentTokens a.tokens).length := List.countP_eq_length_filter
  rw [← warningCount_eq, ← htokens]
  refine ⟨?_, errorCount_add_warningCount a.diagnostics⟩
  rw [Analysis.jsonReport, Json.read?_text, Analysis.toJson, funext hdiagnostic]
  rfl

end Pdl
