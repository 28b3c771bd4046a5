import Pdl.CommandLine.Arguments
import Pdl.CommandLine.Console
import Pdl.CommandLine.Help
import Pdl.Log.Filter
import Pdl.Session

/-!
# Runs

A run of the command line reads its settings, changes them as the arguments
say, and then writes them to a file or analyses the input.

An analysis prints its diagnostics and the reports that were asked for, and
writes the report files.  The log tells each step.  How much it tells is fixed
before the arguments change the settings.

The exit status is 0 if all went well and the input has no errors, 1 if it has
some, and 2 if the run itself failed.
-/

namespace Pdl.CommandLine

/-- The settings after the arguments have changed them. -/
def Options.applyTo (o : Options) (s : Settings) : Settings :=
  { s with
    input := o.input.getD s.input
    outputDir := o.outputDir.getD s.outputDir
    verbose := s.verbose || o.verbose
    writeReports := s.writeReports && !o.noReports }

/-- The text of a report that is printed. -/
def Printed.text (p : Printed) (a : Analysis) : String :=
  match p with
  | .tokens => tokenReport a.tokens
  | .rules => ruleReport a.trace
  | .symbols => symbolReport a.symbols

/-- Which events are shown, and whether in colour. -/
structure Log where
  filter : LogFilter
  colour : Bool

section

variable {m : Type → Type} [Monad m] [FileAccess m] [Console m]

/-- Tells an event, if the log shows it. -/
def Log.tell (l : Log) (e : Event) : m Unit := do
  if l.filter.shows e then Console.report (e.line l.colour (← Console.time))

/-- Ends a run that failed. -/
def fail (message : String) : m Nat := do
  Console.report ("error: " ++ message ++ "\n")
  return 2

/-- Writes the settings to a file. -/
def writeSettings (s : Settings) (path : Path) : m Nat := do
  match ← s.save path with
  | .ok () =>
      Console.print (path ++ "\n")
      return 0
  | .error f => fail ("failed to write configuration to " ++ path ++ ": " ++ f.chain)

/-- Writes the reports of a session. -/
def writeReports (log : Log) (session : Session) (a : Analysis) : m (Except Failure Unit) := do
  match ← session.writeReports a with
  | .error f => return .error f
  | .ok paths =>
      if session.settings.writeReports then
        paths.forM fun path => log.tell (.reportWritten path)
        log.tell (.reportsWritten session.settings.outputDir paths.length)
      else log.tell .reportsDisabled
      return .ok ()

/-- Analyses the input of a session. -/
def analyzeSession (log : Log) (emit : List Printed) (session : Session) : m Nat := do
  log.tell (.inputRead session.settings.input session.source.size)
  log.tell (.analysisStarted session.settings.input)
  let a := session.analysis
  log.tell (.analysisFinished a.tokens.length a.diagnostics.length a.trace.rules.length
    a.trace.accepted)
  Console.report (session.listing a)
  emit.forM fun p => Console.print (p.text a)
  match ← writeReports log session a with
  | .error f => fail f.chain
  | .ok () => return if a.hasErrors then 1 else 0

/-- Analyses the input that the settings name. -/
def analyzeInput (log : Log) (emit : List Printed) (s : Settings) : m Nat := do
  log.tell (.settled s)
  match ← Session.ofInput s with
  | .error f => fail f.chain
  | .ok session => analyzeSession log emit session

/-- The settings that a run starts from. -/
def loadSettings (dirs : Directories) (o : Options) : m (Except SettingsError Settings) :=
  match o.settingsFile with
  | some path => Settings.load path
  | none => Settings.find dirs

/-- Runs the command line with options. -/
def runOptions (env : Environment) (dirs : Directories) (o : Options) : m Nat := do
  match ← loadSettings dirs o with
  | .error e => fail ("failed to load configuration: " ++ (Failure.settings e).chain)
  | .ok loaded =>
      let s := o.applyTo loaded
      match o.writeSettings with
      | some path => writeSettings s path
      | none =>
          let log : Log :=
            ⟨.ofVariable (env "RUST_LOG") (o.verbose || loaded.verbose), !o.noColor⟩
          analyzeInput log o.emit s

/-- Does what the command line asks for. -/
def perform (env : Environment) (request : Request) (dirs : Directories := env) : m Nat :=
  match request with
  | .run o => runOptions env dirs o
  | .help => do
      Console.print helpText
      return 0
  | .version => do
      Console.print versionText
      return 0

/-- Runs the command line, and answers the exit status. -/
def run (env : Environment) (dirs : Directories) (arguments : List String) : m Nat :=
  match Request.read env arguments with
  | .ok request => perform env request dirs
  | .error e => fail (e.message ++ "\n\nFor more information, try '--help'.")

end

end Pdl.CommandLine
