import Pdl.Files.Tree
import Pdl.Lexing.Fault
import Pdl.Toml.Document
import Pdl.Toml.Writing

/-!
# Settings

The settings of a run say which text is analysed, where the reports go,
whether they are written at all, how much the log tells, and the limits of the
lexemes.  Their written form is a document with one key for each.

Reading takes a default for what a document leaves out and ignores keys that
it does not know.  A document gives the limits as a table, or as an array in
the order of the fields.

Two conditions lie outside the types.  Settings under which no string may hold
a character are refused after reading (`Settings.check`), and a limit of
`2 ^ 63` or more cannot be written (`Settings.text?`).
-/

namespace Pdl

/-- How a run is to be made. -/
structure Settings where
  /-- The text to analyse. -/
  input : Path := "input/input.txt"
  /-- The directory of the reports. -/
  outputDir : Path := "output"
  /-- Whether the reports are written. -/
  writeReports : Bool := true
  /-- Whether the log tells each step. -/
  verbose : Bool := false
  /-- The limits of the lexemes. -/
  limits : Limits := {}
deriving Repr, DecidableEq

/-- Why settings cannot be read, used or written. -/
inductive SettingsError where
  /-- Nothing stands at the path. -/
  | missing (path : Path)
  /-- The file cannot be read. -/
  | unreadable (path : Path) (cause : FileError)
  /-- The text is not a document. -/
  | malformed
  /-- The value of a key is not of its kind. -/
  | unsuitable (key : String)
  /-- No string may hold a character. -/
  | noStringChars
  /-- The limit on strings is too large to be written. -/
  | unwritableLimit
deriving Repr, DecidableEq

namespace SettingsError

/-- The message of the error. -/
def message : SettingsError → String
  | missing path => "Configuration file not found: " ++ path
  | unreadable path cause => "Failed to read " ++ path ++ ": " ++ cause.message
  | malformed => "Failed to parse configuration: not a TOML document"
  | unsuitable key => "Failed to parse configuration: invalid value for '" ++ key ++ "'"
  | noStringChars => "limits.max_string_chars must be at least 1"
  | unwritableLimit => "Failed to serialize configuration: max_string_chars is out of range"

end SettingsError

/-! ## Reading -/

/-- The value of a key that holds a text. -/
def textOr (key default : String) (es : Toml.Entries) : Except SettingsError String :=
  match es.lookup key with
  | none => .ok default
  | some (.text s) => .ok s
  | some _ => .error (.unsuitable key)

/-- The value of a key that holds a truth value. -/
def booleanOr (key : String) (default : Bool) (es : Toml.Entries) : Except SettingsError Bool :=
  match es.lookup key with
  | none => .ok default
  | some (.boolean b) => .ok b
  | some _ => .error (.unsuitable key)

/-- A number below `bound`, or the default for none. -/
def numberOr (key : String) (default bound : Nat) :
    Option Toml.Value → Except SettingsError Nat
  | none => .ok default
  | some (.integer (.ofNat n)) => if n < bound then .ok n else .error (.unsuitable key)
  | some _ => .error (.unsuitable key)

namespace Limits

/-- The limits from a value for each of them. -/
def ofValues (maxStringChars maxInteger : Option Toml.Value) : Except SettingsError Limits := do
  let defaults : Limits := {}
  return {
    maxStringChars := ← numberOr "max_string_chars" defaults.maxStringChars 0x10000000000000000 maxStringChars
    maxInteger := ← numberOr "max_integer" defaults.maxInteger 0x100000000 maxInteger }

/-- The limits that a document gives.  A moment counts as a table that has
neither of them. -/
def ofValue : Option Toml.Value → Except SettingsError Limits
  | none => .ok {}
  | some (.table _ es) => ofValues (es.lookup "max_string_chars") (es.lookup "max_integer")
  | some (.array vs) => ofValues vs[0]? vs[1]?
  | some (.moment _) => .ok {}
  | some _ => .error (.unsuitable "limits")

end Limits

namespace Settings

/-- The settings that a document gives. -/
def ofEntries (es : Toml.Entries) : Except SettingsError Settings := do
  let defaults : Settings := {}
  return {
    input := ← textOr "input" defaults.input es
    outputDir := ← textOr "output_dir" defaults.outputDir es
    writeReports := ← booleanOr "write_reports" defaults.writeReports es
    verbose := ← booleanOr "verbose" defaults.verbose es
    limits := ← Limits.ofValue (es.lookup "limits") }

/-- Whether settings can be used. -/
def check (s : Settings) : Except SettingsError Unit :=
  if s.limits.maxStringChars = 0 then .error .noStringChars else .ok ()

/-- The settings that a text gives. -/
def ofText (text : String) : Except SettingsError Settings := do
  match Toml.Document.read? text with
  | none => throw .malformed
  | some es =>
      let s ← ofEntries es
      s.check
      return s

/-! ## Writing -/

/-- The written form of settings, all fields included. -/
def text? (s : Settings) : Except SettingsError String :=
  if 0x8000000000000000 ≤ s.limits.maxStringChars then .error .unwritableLimit
  else .ok (
    Toml.writeLine "input" (Toml.writeText s.input)
      ++ Toml.writeLine "output_dir" (Toml.writeText s.outputDir)
      ++ Toml.writeLine "write_reports" (Toml.writeBoolean s.writeReports)
      ++ Toml.writeLine "verbose" (Toml.writeBoolean s.verbose)
      ++ "\n[limits]\n"
      ++ Toml.writeLine "max_string_chars" (toString s.limits.maxStringChars)
      ++ Toml.writeLine "max_integer" (toString s.limits.maxInteger))

end Settings

example : (Settings.ofText "").toOption = some {} := by decide +kernel
example : (Settings.ofText "verbose = true\n[limits]\nmax_integer = 0x10").toOption
    = some { verbose := true, limits := ⟨64, 16⟩ } := by decide +kernel
example : (Settings.ofText "limits = [9]").toOption = some { limits := ⟨9, 32767⟩ } := by
  decide +kernel
example : (Settings.ofText "verbose = 1").toOption = none := by decide +kernel
example : (Settings.text? { input := "a'\n\\" }).toOption
    = some ("input = '''\na'\n\\'''\noutput_dir = \"output\"\nwrite_reports = true\n"
      ++ "verbose = false\n\n[limits]\nmax_string_chars = 64\nmax_integer = 32767\n") := by
  decide +kernel

end Pdl
