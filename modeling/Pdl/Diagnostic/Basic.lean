import Pdl.Diagnostic.Code
import Pdl.Text.Position

/-!
# Diagnostics

A diagnostic says what is wrong at one place of the source text.  Faults never
stop an analysis: every phase hands on its result together with the list of
its diagnostics, in the order in which it met them.  An error makes the text
unacceptable, a warning does not.
-/

namespace Pdl

/-- How grave a diagnostic is. -/
inductive Level where
  | error
  | warning
deriving Repr, DecidableEq

/-- The name of a level in messages. -/
def Level.name : Level → String
  | error => "error"
  | warning => "warning"

/-- What is wrong at one place of the source text. -/
structure Diagnostic where
  /-- How grave it is. -/
  level : Level
  /-- What is wrong. -/
  message : String
  /-- The place. -/
  span : Span := .nowhere
  /-- The kind of the diagnostic. -/
  code : Option Code := none
  /-- Remarks. -/
  notes : List String := []
  /-- Advice. -/
  helps : List String := []
deriving Repr, DecidableEq

namespace Diagnostic

/-- Whether the diagnostic makes the text unacceptable. -/
def isError (d : Diagnostic) : Bool := d.level == .error

/-- The first line of the diagnostic: level, code and message. -/
def headline (d : Diagnostic) : String :=
  d.level.name ++ (match d.code with
    | some c => "[" ++ c.text ++ "]"
    | none => "") ++ ": " ++ d.message

/-- The diagnostic on one line, with its place. -/
def text (d : Diagnostic) : String := d.headline ++ " at " ++ d.span.position.text

end Diagnostic

/-- The number of errors in a list of diagnostics. -/
def errorCount (ds : List Diagnostic) : Nat := ds.countP Diagnostic.isError

/-- The number of warnings in a list of diagnostics. -/
def warningCount (ds : List Diagnostic) : Nat := ds.length - errorCount ds

/-- Whether a list of diagnostics holds an error. -/
def hasErrors (ds : List Diagnostic) : Bool := ds.any Diagnostic.isError

/-- How many errors and warnings there are, in words. -/
def summary (ds : List Diagnostic) : String :=
  toString (errorCount ds) ++ " error(s), " ++ toString (warningCount ds) ++ " warning(s)"

theorem errorCount_add_warningCount (ds : List Diagnostic) :
    errorCount ds + warningCount ds = ds.length := by
  have h : errorCount ds ≤ ds.length := List.countP_le_length
  simp only [warningCount]
  omega

end Pdl
