import Pdl.Settings.Basic
import Pdl.Text.Escaped

/-!
# Log events

The log tells the steps of a run.  Each event has a level, the component that
it comes from, a message, and fields with a value each.

A line of the log has the time, the level, the message and the fields.  In
colour the time and the equals signs are dim, the level has a colour of its
own, and the names of the fields are in italics.
-/

namespace Pdl

/-- How much an event matters, the most important first. -/
inductive LogLevel where
  | error
  | warning
  | info
  | debug
  | trace
deriving Repr, DecidableEq

namespace LogLevel

/-- The place in the order. -/
def rank : LogLevel → Nat
  | error => 1
  | warning => 2
  | info => 3
  | debug => 4
  | trace => 5

/-- The level in a column of five characters. -/
def column : LogLevel → String
  | error => "ERROR"
  | warning => " WARN"
  | info => " INFO"
  | debug => "DEBUG"
  | trace => "TRACE"

/-- The number of its colour on a terminal. -/
def colour : LogLevel → String
  | error => "31"
  | warning => "33"
  | info => "32"
  | debug => "34"
  | trace => "35"

end LogLevel

/-- Where events come from. -/
inductive Component where
  /-- The command line. -/
  | program
  /-- The session. -/
  | session
deriving Repr, DecidableEq

/-- The name of a component in a filter. -/
def Component.name : Component → String
  | program => "analizador"
  | session => "anz_drv"

/-- A step of a run. -/
inductive Event where
  /-- The settings are fixed. -/
  | settled (settings : Settings)
  /-- The input has been read. -/
  | inputRead (path : Path) (bytes : Nat)
  /-- The analysis begins. -/
  | analysisStarted (path : Path)
  /-- The analysis has ended. -/
  | analysisFinished (tokens diagnostics rules : Nat) (accepted : Bool)
  /-- The reports are not asked for. -/
  | reportsDisabled
  /-- A report has been written. -/
  | reportWritten (path : Path)
  /-- All reports have been written. -/
  | reportsWritten (dir : Path) (files : Nat)
deriving Repr, DecidableEq

/-- A truth value in a message. -/
def truthText (b : Bool) : String := if b then "true" else "false"

/-- Settings on one line. -/
def Settings.inlineText (s : Settings) : String :=
  "Config \x7b input: " ++ quotedText s.input ++ ", output_dir: " ++ quotedText s.outputDir
    ++ ", write_reports: " ++ truthText s.writeReports ++ ", verbose: " ++ truthText s.verbose
    ++ ", limits: LimitsConfig \x7b max_string_chars: " ++ toString s.limits.maxStringChars
    ++ ", max_integer: " ++ toString s.limits.maxInteger ++ " \x7d \x7d"

namespace Event

/-- The level of an event. -/
def level : Event → LogLevel
  | reportsWritten _ _ => .info
  | _ => .debug

/-- The component that an event comes from. -/
def component : Event → Component
  | settled _ | analysisStarted _ => .program
  | _ => .session

/-- The message of an event. -/
def message : Event → String
  | settled _ => "effective configuration"
  | inputRead _ _ => "read input"
  | analysisStarted _ => "analyzing"
  | analysisFinished _ _ _ _ => "analysis finished"
  | reportsDisabled => "report writing disabled"
  | reportWritten _ => "wrote report"
  | reportsWritten _ _ => "reports written"

/-- The fields of an event. -/
def fields : Event → List (String × String)
  | settled settings => [("config", settings.inlineText)]
  | inputRead path bytes => [("path", path), ("bytes", toString bytes)]
  | analysisStarted path => [("input", path)]
  | analysisFinished tokens diagnostics rules accepted =>
      [("tokens", toString tokens), ("diagnostics", toString diagnostics),
        ("rules", toString rules), ("accepted", truthText accepted)]
  | reportsDisabled => []
  | reportWritten path => [("path", path)]
  | reportsWritten dir files => [("dir", dir), ("files", toString files)]

/-- Whether an event has a field.  The message counts as one. -/
def hasField (e : Event) (name : String) : Bool :=
  name = "message" || e.fields.any fun f => f.1 = name

end Event

/-- A text in a style of the terminal, if there is colour. -/
def styled (colour : Bool) (style text : String) : String :=
  if colour then "\x1b[" ++ style ++ "m" ++ text ++ "\x1b[0m" else text

/-- The line of an event in the log, at a time. -/
def Event.line (e : Event) (colour : Bool) (time : String) : String :=
  let field (f : String × String) : String :=
    " " ++ styled colour "3" f.1 ++ styled colour "2" "=" ++ f.2
  styled colour "2" time ++ " " ++ styled colour e.level.colour e.level.column ++ " " ++ e.message
    ++ String.join (e.fields.map field) ++ "\n"

example : (Event.reportsWritten "r" 4).line false "T" = "T  INFO reports written dir=r files=4\n" := by
  decide +kernel
example : (Event.reportWritten "a").line true "T"
    = "\x1b[2mT\x1b[0m \x1b[34mDEBUG\x1b[0m wrote report \x1b[3mpath\x1b[0m\x1b[2m=\x1b[0ma\n" := by
  decide +kernel

end Pdl
