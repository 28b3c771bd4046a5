import Pdl.Files.Access
import Pdl.Settings.Basic

/-!
# Settings in files

Settings are looked for in the current directory, then under the home
directory, and then under the directory for settings of the user.  The first
file that is there counts, even if it turns out to be faulty.  Without any
file the defaults hold.

Which directories the user has is for the system to say, so a run is given
them (`Directories`).  Most often its variables tell (`Directories.ofVariables`).
-/

namespace Pdl

/-- The environment variables that are set. -/
abbrev Environment := String → Option String

/-- What can stop a run. -/
inductive Failure where
  /-- The text to analyse cannot be read. -/
  | unreadableInput (path : Path) (cause : FileError)
  /-- The settings are at fault. -/
  | settings (error : SettingsError)
  /-- A file cannot be written. -/
  | unwritable (path : Path) (cause : FileError)
deriving Repr, DecidableEq

namespace Failure

/-- The message of the failure. -/
def message : Failure → String
  | unreadableInput path cause => "cannot read '" ++ path ++ "': " ++ cause.message
  | settings error => "Configuration error: " ++ error.message
  | unwritable path cause => "cannot write report '" ++ path ++ "': " ++ cause.message

/-- The failure of the system behind it. -/
def cause? : Failure → Option FileError
  | unreadableInput _ cause => some cause
  | settings _ => none
  | unwritable _ cause => some cause

/-- The message, and that of the failure behind it once more. -/
def chain (f : Failure) : String :=
  match f.cause? with
  | some cause => f.message ++ ": " ++ cause.message
  | none => f.message

end Failure

/-- The directories of the user, as far as there are any. -/
structure Directories where
  /-- The home directory. -/
  home? : Option Path := none
  /-- The directory for settings. -/
  settings? : Option Path := none
deriving Repr, DecidableEq

/-- The directories that the variables name.  Without a home directory among them it is that of
the account. -/
def Directories.ofVariables (env : Environment) (account? : Option Path := none) : Directories :=
  let home? := (env "HOME").filter (· != "") <|> account?
  { home?
    settings? := (env "XDG_CONFIG_HOME").filter Path.isAbsolute
      <|> home?.map (Path.join · ".config") }

instance : Coe Environment Directories := ⟨fun env => .ofVariables env⟩

namespace Settings

/-- The name of a file with settings. -/
def fileName : String := "analizador.toml"

/-- The places where settings are looked for, in this order. -/
def places (dirs : Directories) : List Path :=
  let below (dir : Path) : Path := (dir.join "analizador").join fileName
  fileName :: (dirs.home?.map fun dir => below (dir.join ".config")).toList
    ++ (dirs.settings?.map below).toList

section

variable {m : Type → Type} [Monad m] [FileAccess m]

/-- Reads the settings in a file. -/
def load (path : Path) : m (Except SettingsError Settings) := do
  if ← FileAccess.contains path then
    match ← FileAccess.readText path with
    | .ok text => return ofText text
    | .error e => return .error (.unreadable path e)
  else return .error (.missing path)

/-- The first path at which something stands. -/
def firstPresent : List Path → m (Option Path)
  | [] => return none
  | p :: ps => do if ← FileAccess.contains p then return some p else firstPresent ps

/-- Reads the settings in the first file that is there. -/
def find (dirs : Directories) : m (Except SettingsError Settings) := do
  match ← firstPresent (places dirs) with
  | some path => load path
  | none => return .ok {}

/-- Writes the settings to a file and makes the directory that it lies in. -/
def save (s : Settings) (path : Path) : m (Except Failure Unit) := do
  match ← makeDirectories (path.parent?.getD "") with
  | .error e => return .error (.unwritable path e)
  | .ok () =>
      match s.text? with
      | .error e => return .error (.settings e)
      | .ok text =>
          match ← FileAccess.writeText path text with
          | .error e => return .error (.unwritable path e)
          | .ok () => return .ok ()

end

end Settings

end Pdl
