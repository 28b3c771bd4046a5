import Pdl.Settings.Files

/-!
# Arguments

The command line takes options and at most one input.  Arguments, like paths
and the values of variables, are texts in Unicode.  An option goes by a long
name after two hyphens, and some also by a letter after one.  Letters may share
a hyphen, as in `-vo dir`.

An option that takes a value has it in the same argument or in the next one:
`-odir`, `-o=dir`, `-o dir`, `--output-dir=dir` and `--output-dir dir` say the
same.  A value in an argument of its own may not start with a hyphen, unless
it is just the hyphen.  No value is empty.  An option that takes no value
cannot have one.  Only `--emit` may be repeated.  After `--` every argument is
an input.

Three options have an environment variable that speaks for them where they are
absent.  Arguments are read from left to right, and the first request for help
or the version, or the first fault, decides.
-/

namespace Pdl.CommandLine

/-- An option. -/
inductive OptionName where
  | outputDir
  | settingsFile
  | verbose
  | noColor
  | noReports
  | emit
  | writeSettings
  | help
  | version
deriving Repr, DecidableEq

namespace OptionName

/-- The long name. -/
def long : OptionName → String
  | outputDir => "output-dir"
  | settingsFile => "config"
  | verbose => "verbose"
  | noColor => "no-color"
  | noReports => "no-reports"
  | emit => "emit"
  | writeSettings => "write-config"
  | help => "help"
  | version => "version"

/-- The letter. -/
def letter? : OptionName → Option Char
  | outputDir => some 'o'
  | settingsFile => some 'c'
  | verbose => some 'v'
  | help => some 'h'
  | version => some 'V'
  | _ => none

/-- Whether the option takes a value. -/
def takesValue : OptionName → Bool
  | outputDir | settingsFile | emit | writeSettings => true
  | verbose | noColor | noReports | help | version => false

/-- The environment variable that speaks for an absent option. -/
def environmentName? : OptionName → Option String
  | settingsFile => some "ANALIZADOR_CONFIG"
  | verbose => some "ANALIZADOR_VERBOSE"
  | noColor => some "ANALIZADOR_NO_COLOR"
  | _ => none

/-- All options. -/
def all : List OptionName :=
  [outputDir, settingsFile, verbose, noColor, noReports, emit, writeSettings, help, version]

/-- The option with a long name. -/
def ofLong? (name : String) : Option OptionName := all.find? (·.long == name)

/-- The option with a letter. -/
def ofLetter? (c : Char) : Option OptionName := all.find? (·.letter? == some c)

end OptionName

/-- A report that can be printed. -/
inductive Printed where
  | tokens
  | rules
  | symbols
deriving Repr, DecidableEq

/-- The report with a name. -/
def Printed.ofName? : String → Option Printed
  | "tokens" => some .tokens
  | "rules" => some .rules
  | "symbols" => some .symbols
  | _ => none

/-- What the arguments of a run say. -/
structure Options where
  input : Option Path := none
  outputDir : Option Path := none
  settingsFile : Option Path := none
  verbose : Bool := false
  noColor : Bool := false
  noReports : Bool := false
  /-- The reports to print, in this order. -/
  emit : List Printed := []
  /-- The file to which the settings go, instead of an analysis. -/
  writeSettings : Option Path := none
deriving Repr, DecidableEq

/-- What the command line asks for. -/
inductive Request where
  | run (options : Options)
  | help
  | version
deriving Repr, DecidableEq

/-- Why arguments are refused. -/
inductive UsageError where
  /-- No option has this name. -/
  | unknown (argument : String)
  /-- An option lacks its value. -/
  | missingValue (option : OptionName)
  /-- An option that takes no value has one. -/
  | unexpectedValue (option : OptionName)
  /-- An option is given again. -/
  | repeated (option : OptionName)
  /-- A value is not one of those that are allowed. -/
  | invalidValue (option : OptionName) (value : String)
  /-- There is an input already. -/
  | extraInput (argument : String)
  /-- The input is empty. -/
  | emptyInput
deriving Repr, DecidableEq

namespace UsageError

/-- The message of the error. -/
def message : UsageError → String
  | unknown argument => "unexpected argument '" ++ argument ++ "' found"
  | missingValue option => "a value is required for '--" ++ option.long ++ "' but none was supplied"
  | unexpectedValue option => "unexpected value for '--" ++ option.long ++ "'"
  | repeated option => "the argument '--" ++ option.long ++ "' cannot be used multiple times"
  | invalidValue option value => "invalid value '" ++ value ++ "' for '--" ++ option.long ++ "'"
  | extraInput argument => "unexpected argument '" ++ argument ++ "' found"
  | emptyInput => "a value is required for '[INPUT]' but none was supplied"

end UsageError

namespace Options

/-- A path for an option that has none yet. -/
def path (option : OptionName) (value : String) : Option Path → Except UsageError (Option Path)
  | some _ => .error (.repeated option)
  | none => if value = "" then .error (.missingValue option) else .ok (some value)

/-- The options with a value for one of them. -/
def withValue (o : Options) (option : OptionName) (value : String) : Except UsageError Options :=
  match option with
  | .outputDir => do return { o with outputDir := ← path option value o.outputDir }
  | .settingsFile => do return { o with settingsFile := ← path option value o.settingsFile }
  | .writeSettings => do return { o with writeSettings := ← path option value o.writeSettings }
  | .emit => match Printed.ofName? value with
    | some p => .ok { o with emit := o.emit ++ [p] }
    | none => .error (.invalidValue option value)
  | _ => .error (.unexpectedValue option)

/-- The options with one that takes no value. -/
def withFlag (o : Options) (option : OptionName) : Except UsageError Options :=
  match option with
  | .verbose => if o.verbose then .error (.repeated option) else .ok { o with verbose := true }
  | .noColor => if o.noColor then .error (.repeated option) else .ok { o with noColor := true }
  | .noReports =>
      if o.noReports then .error (.repeated option) else .ok { o with noReports := true }
  | _ => .error (.missingValue option)

/-- The options with an input. -/
def withInput (o : Options) (argument : String) : Except UsageError Options :=
  match o.input with
  | some _ => .error (.extraInput argument)
  | none => if argument = "" then .error .emptyInput else .ok { o with input := some argument }

/-- A flag for which its variable may speak. -/
def flagOr (env : Environment) (option : OptionName) (given : Bool) : Except UsageError Bool :=
  if given then .ok true
  else match option.environmentName?.bind env with
    | none => .ok false
    | some "true" => .ok true
    | some "false" => .ok false
    | some value => .error (.invalidValue option value)

/-- The options after the variables have spoken for those that are absent. -/
def withVariables (o : Options) (env : Environment) : Except UsageError Options := do
  let settingsFile ← match o.settingsFile with
    | some file => pure (some file)
    | none => match OptionName.settingsFile.environmentName?.bind env with
      | some value => path .settingsFile value none
      | none => pure none
  return { o with
    settingsFile := settingsFile
    verbose := ← flagOr env .verbose o.verbose
    noColor := ← flagOr env .noColor o.noColor }

end Options

/-- How far the letters after a hyphen lead. -/
inductive Letters where
  /-- All are read. -/
  | done (o : Options)
  /-- The last one takes its value from the next argument. -/
  | pending (o : Options) (option : OptionName)
  /-- One of them asks for something else. -/
  | stop (r : Request)

/-- Reads the letters after a hyphen. -/
def readLetters (o : Options) : List Char → Except UsageError Letters
  | [] => .ok (.done o)
  | c :: cs =>
      match OptionName.ofLetter? c with
      | none => .error (.unknown ("-" ++ c.toString))
      | some .help => .ok (.stop .help)
      | some .version => .ok (.stop .version)
      | some option =>
          if option.takesValue then
            match cs with
            | [] => .ok (.pending o option)
            | '=' :: value => (o.withValue option (.ofList value)).map .done
            | value => (o.withValue option (.ofList value)).map .done
          else do readLetters (← o.withFlag option) cs

/-- The name of a long option, and the value after its equals sign. -/
def splitLong (cs : List Char) : String × Option String :=
  (.ofList (cs.takeWhile (· != '=')),
    match cs.dropWhile (· != '=') with
    | _ :: value => some (.ofList value)
    | [] => none)

/-- Reads an option by its long name. -/
def readLong (o : Options) (cs : List Char) : Except UsageError Letters :=
  let (name, value) := splitLong cs
  match OptionName.ofLong? name, value with
  | none, _ => .error (.unknown ("--" ++ name))
  | some option, some value => (o.withValue option value).map .done
  | some .help, none => .ok (.stop .help)
  | some .version, none => .ok (.stop .version)
  | some option, none =>
      if option.takesValue then .ok (.pending o option) else (o.withFlag option).map .done

/-- Whether an argument can be a value of its own. -/
def isValue (argument : String) : Bool := argument = "-" || argument.toList.head? != some '-'

/-- Reads arguments; `plain` says that `--` has come before them. -/
def readFrom (env : Environment) (o : Options) (plain : Bool) :
    List String → Except UsageError Request
  | [] => (o.withVariables env).map .run
  | a :: as =>
      if plain || isValue a then do readFrom env (← o.withInput a) plain as
      else if a = "--" then readFrom env o true as
      else do
        let letters ← match a.toList with
          | '-' :: '-' :: cs => readLong o cs
          | cs => readLetters o (cs.drop 1)
        match letters with
        | .stop r => return r
        | .done o => readFrom env o plain as
        | .pending o option =>
            match as with
            | [] => throw (.missingValue option)
            | value :: as =>
                if isValue value then do readFrom env (← o.withValue option value) plain as
                else throw (.missingValue option)

/-- What arguments ask for. -/
def Request.read (env : Environment) (arguments : List String) : Except UsageError Request :=
  readFrom env {} false arguments

private def unset : Environment := fun _ => none

example : (Request.read unset ["-vor", "--emit=rules", "x"]).toOption
    = some (.run { input := some "x", outputDir := some "r", verbose := true, emit := [.rules] }) := by
  decide +kernel
example : (Request.read unset ["-vV", "--bad"]).toOption = some .version := by decide +kernel
example : (Request.read unset ["-o", "-v"]).toOption = none := by decide +kernel
example : (Request.read unset ["--", "-v"]).toOption = some (.run { input := some "-v" }) := by
  decide +kernel
example : (Request.read (fun _ => some "true") ["-c", "f"]).toOption
    = some (.run { settingsFile := some "f", verbose := true, noColor := true }) := by
  decide +kernel

end Pdl.CommandLine
