import Pdl.Files.Access

/-!
# Consoles

A run prints to two streams, one for what was asked for and one for
diagnostics, failures and the log.  It takes the time for the log from a
clock.

A `World` is a file tree together with what a run has printed so far.  It lets
the program be run, and reasoned about, without the system.
-/

namespace Pdl

/-- The streams of a run, and its clock. -/
class Console (m : Type → Type) where
  /-- Prints what was asked for. -/
  print : String → m Unit
  /-- Prints diagnostics, failures and the log. -/
  report : String → m Unit
  /-- The time as text. -/
  time : m String

/-- A file tree and two streams, with a clock that stands still. -/
structure World where
  files : FileTree
  /-- What was asked for. -/
  output : String := ""
  /-- Diagnostics, failures and the log. -/
  errors : String := ""
  /-- The time that the clock shows. -/
  clock : String := ""

namespace World

/-- An operation on the files of a world. -/
def onFiles {α : Type} (x : StateM FileTree α) : StateM World α := fun w =>
  let (a, files) := x w.files
  (a, { w with files })

instance : FileAccess (StateM World) where
  contains p := onFiles (FileAccess.contains p)
  isDirectory p := onFiles (FileAccess.isDirectory p)
  readText p := onFiles (FileAccess.readText p)
  makeDirectory p := onFiles (FileAccess.makeDirectory p)
  writeText p text := onFiles (FileAccess.writeText p text)

instance : Console (StateM World) where
  print text := modify fun w => { w with output := w.output ++ text }
  report text := modify fun w => { w with errors := w.errors ++ text }
  time := return (← get).clock

end World

end Pdl
