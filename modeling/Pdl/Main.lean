import Std.Time
import Pdl.CommandLine.Run

/-!
# The program

The command line on the files, streams and clock of the system.
-/

namespace Pdl

/-- The cause of a failure of the system, whose number may have either sign. -/
def FileError.ofSystem (e : IO.Error) : FileError :=
  match e with
  | .noFileOrDirectory .. => .notFound
  | .alreadyExists .. => .alreadyExists
  | .inappropriateType _ code _ => if code = 20 || code = -20 then .notDirectory else .isDirectory
  | e => .system (toString e)

/-- The outcome of an operation on files. -/
def outcome {α : Type} (x : IO α) : IO (Except FileError α) := do
  try return .ok (← x)
  catch e => return .error (.ofSystem e)

/-- What the system knows about the file at a path. -/
def metadata (p : Path) : IO (Except FileError IO.FS.Metadata) := do
  let here ← IO.currentDir
  if p = "" then return .error .notFound
  outcome (here / p).metadata

instance : FileAccess IO where
  contains p := return (← metadata p).toOption.isSome
  isDirectory p := return (← metadata p).toOption.any (·.type == .dir)
  readText p := do
    match ← outcome (IO.FS.readBinFile p) with
    | .error e => return .error e
    | .ok content => match String.fromUTF8? content with
      | some text => return .ok text
      | none => return .error .notText
  makeDirectory p := outcome (IO.FS.createDir p)
  writeText p text := outcome (IO.FS.writeFile p text)

instance : Console IO where
  print text := do (← IO.getStdout).putStr text
  report text := do (← IO.getStderr).putStr text
  time := do
    let now : Std.Time.DateTime ← Std.Time.DateTime.now
    return now.format "uuuu-MM-dd'T'HH:mm:ss.SSSSSS'Z'"

/-- The environment variables that a run looks at. -/
def environment : IO Environment := do
  let names := ["HOME", "XDG_CONFIG_HOME", "RUST_LOG"]
    ++ CommandLine.OptionName.all.filterMap CommandLine.OptionName.environmentName?
  let values ← names.mapM fun name => return (name, ← IO.getEnv name)
  return fun name => (values.lookup name).join

/-- The number of the account that the program runs under. -/
def accountNumber? : IO (Option String) := do
  let lines ← IO.FS.lines "/proc/self/status"
  let number := lines.toList.find? (·.startsWith "Uid:")
  return number.bind fun line => ((line.splitOn "\t").filter (· != ""))[1]?

/-- The home directory of the account that the program runs under. -/
def accountHome? : IO (Option Path) := do
  try
    let some number ← accountNumber? | return none
    let accounts := (← IO.FS.lines "/etc/passwd").toList.map (·.splitOn ":")
    return (accounts.find? (·[2]? == some number)).bind (·[5]?)
  catch _ => return none

end Pdl

/-- Runs the command line. -/
def main (arguments : List String) : IO UInt32 := do
  let env ← Pdl.environment
  let status ← Pdl.CommandLine.run env (.ofVariables env (← Pdl.accountHome?)) arguments
  return status.toUInt32
