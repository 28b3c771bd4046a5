import Pdl.Report
import Pdl.Settings.Files

/-!
# Sessions

A session is a source text together with the settings under which it is
analysed.  It keeps the settings with which it was made.

Writing the reports makes the directory and then one file after the other.
The first failure ends it, and the files written before it stay.
-/

namespace Pdl

/-- A source text and the settings for its analysis. -/
structure Session where
  settings : Settings
  source : Source
deriving Repr, DecidableEq

namespace Session

/-- The analysis of the source text. -/
def analysis (s : Session) : Analysis := analyze s.settings.limits s.source.content

/-- The diagnostics of an analysis, with the lines of the source text that
they are about. -/
def listing (s : Session) (a : Analysis) : String := Pdl.listing s.source a.diagnostics

section

variable {m : Type → Type} [Monad m] [FileAccess m]

/-- The session for the input that the settings name. -/
def ofInput (settings : Settings) : m (Except Failure Session) := do
  match ← FileAccess.readText settings.input with
  | .ok text => return .ok ⟨settings, ⟨settings.input, text⟩⟩
  | .error e => return .error (.unreadableInput settings.input e)

/-- Writes texts to files of a directory, and answers their paths. -/
def writeFiles (dir : Path) : List (String × String) → m (Except Failure (List Path))
  | [] => return .ok []
  | (name, text) :: files => do
      let path := dir.join name
      match ← FileAccess.writeText path text with
      | .error e => return .error (.unwritable path e)
      | .ok () =>
          match ← writeFiles dir files with
          | .error e => return .error e
          | .ok paths => return .ok (path :: paths)

/-- Writes the reports of an analysis, if the settings say so, and answers
their paths. -/
def writeReports (s : Session) (a : Analysis) : m (Except Failure (List Path)) := do
  if s.settings.writeReports then
    match ← makeDirectories s.settings.outputDir with
    | .error e => return .error (.unwritable s.settings.outputDir e)
    | .ok () => writeFiles s.settings.outputDir a.reports
  else return .ok []

end

end Session

end Pdl
