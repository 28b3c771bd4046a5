import Pdl.CommandLine.Run
import Pdl.Proofs.Files.Access

/-!
# Runs in a world

A program over any monad that gives access to files does to the files of a world what it
does to a file tree.  The two runs are the same up to `World.onFiles`, which passes
through `bind`, so each program is followed through its operations once.
-/

namespace Pdl

/-! ## The files of a world -/

namespace World

variable {α β : Type}

theorem onFiles_bind (x : StateM FileTree α) (f : α → StateM FileTree β) :
    onFiles (x >>= f) = onFiles x >>= fun a => onFiles (f a) := rfl

theorem settle_eq (p : Path) (r : Except FileError Unit) :
    (makeFirst.settle p r : StateM World _) = onFiles (makeFirst.settle p r) := by
  cases r with
  | ok => rfl
  | error e =>
    rw [makeFirst.settle, makeFirst.settle, onFiles_bind]
    refine bind_congr fun there => ?_
    cases there <;> rfl

theorem makeFirst_eq (ps : List Path) :
    (makeFirst ps : StateM World _) = onFiles (makeFirst ps) := by
  induction ps with
  | nil => rfl
  | cons p ps ih =>
    rw [makeFirst, makeFirst]
    split
    · rfl
    rw [onFiles_bind]
    refine bind_congr fun r => ?_
    split
    · rfl
    · rw [onFiles_bind, ih]
      refine bind_congr fun r => ?_
      split
      · rfl
      · rw [onFiles_bind]
        exact bind_congr (settle_eq p)
    · exact settle_eq p _

theorem makeDirectories_eq (p : Path) :
    (makeDirectories p : StateM World _) = onFiles (makeDirectories p) := makeFirst_eq p.ancestors

theorem load_eq (p : Path) : (Settings.load p : StateM World _) = onFiles (Settings.load p) := by
  rw [Settings.load, Settings.load, onFiles_bind]
  refine bind_congr fun there => ?_
  cases there with
  | false => rfl
  | true =>
    rw [if_pos rfl, if_pos rfl, onFiles_bind]
    refine bind_congr fun r => ?_
    cases r <;> rfl

theorem firstPresent_eq (ps : List Path) :
    (Settings.firstPresent ps : StateM World _) = onFiles (Settings.firstPresent ps) := by
  induction ps with
  | nil => rfl
  | cons p ps ih =>
    rw [Settings.firstPresent, Settings.firstPresent, onFiles_bind]
    refine bind_congr fun there => ?_
    cases there with
    | false => exact ih
    | true => rfl

theorem find_eq (dirs : Directories) :
    (Settings.find dirs : StateM World _) = onFiles (Settings.find dirs) := by
  rw [Settings.find, Settings.find, onFiles_bind, firstPresent_eq]
  refine bind_congr fun found => ?_
  cases found with
  | none => rfl
  | some p => exact load_eq p

theorem loadSettings_eq (dirs : Directories) (o : CommandLine.Options) :
    (CommandLine.loadSettings dirs o : StateM World _)
      = onFiles (CommandLine.loadSettings dirs o) := by
  rw [CommandLine.loadSettings, CommandLine.loadSettings]
  cases o.settingsFile with
  | none => exact find_eq dirs
  | some p => exact load_eq p

theorem save_eq (s : Settings) (p : Path) :
    (s.save p : StateM World _) = onFiles (s.save p) := by
  rw [Settings.save, Settings.save, onFiles_bind, makeDirectories_eq]
  refine bind_congr fun r => ?_
  cases r with
  | error e => rfl
  | ok =>
    dsimp only
    split
    · rfl
    · rw [onFiles_bind]
      refine bind_congr fun r => ?_
      cases r <;> rfl

theorem ofInput_eq (s : Settings) :
    (Session.ofInput s : StateM World _) = onFiles (Session.ofInput s) := by
  rw [Session.ofInput, Session.ofInput, onFiles_bind]
  refine bind_congr fun r => ?_
  cases r <;> rfl

theorem writeFiles_eq (dir : Path) (files : List (String × String)) :
    (Session.writeFiles dir files : StateM World _) = onFiles (Session.writeFiles dir files) := by
  induction files with
  | nil => rfl
  | cons file files ih =>
    rw [Session.writeFiles, Session.writeFiles, onFiles_bind]
    refine bind_congr fun r => ?_
    cases r with
    | error e => rfl
    | ok =>
      dsimp only
      rw [onFiles_bind, ih]
      refine bind_congr fun r => ?_
      cases r <;> rfl

theorem writeReports_eq (s : Session) (a : Analysis) :
    (s.writeReports a : StateM World _) = onFiles (s.writeReports a) := by
  rw [Session.writeReports, Session.writeReports]
  split
  · rw [onFiles_bind, makeDirectories_eq]
    refine bind_congr fun r => ?_
    cases r with
    | error e => rfl
    | ok => exact writeFiles_eq _ _
  · rfl

/-- An operation on the files of a world leaves the rest of it. -/
theorem onFiles_of_eq {x : StateM FileTree α} {w : World} {a : α} {t : FileTree}
    (h : x w.files = (a, t)) : onFiles x w = (a, { w with files := t }) := by
  rw [onFiles, h]

end World

/-! ## The streams of a world -/

namespace CommandLine

/-- The log goes to the errors. -/
theorem exists_tell_eq (log : Log) (e : Event) (w : World) :
    ∃ errors, (log.tell e : StateM World _) w = ((), { w with errors := errors }) := by
  rw [Log.tell]
  split
  · exact ⟨_, rfl⟩
  · exact ⟨w.errors, rfl⟩

theorem exists_forM_tell_eq {α : Type} (log : Log) (event : α → Event) (xs : List α) (w : World) :
    ∃ errors, (xs.forM fun x => log.tell (event x) : StateM World _) w
      = ((), { w with errors := errors }) := by
  induction xs generalizing w with
  | nil => exact ⟨w.errors, rfl⟩
  | cons x xs ih =>
    obtain ⟨errors, htell⟩ := exists_tell_eq log (event x) w
    obtain ⟨errors', hrest⟩ := ih { w with errors := errors }
    exact ⟨errors', (bind_of_eq htell _).trans hrest⟩

theorem forM_print_eq {α : Type} (text : α → String) (xs : List α) (w : World) :
    (xs.forM fun x => Console.print (text x) : StateM World _) w
      = ((), { w with output := w.output ++ String.join (xs.map text) }) := by
  induction xs generalizing w with
  | nil =>
    rw [List.map_nil, String.join_nil, String.append_empty]
    rfl
  | cons x xs ih =>
    have hprint : (Console.print (text x) : StateM World _) w
        = ((), { w with output := w.output ++ text x }) := rfl
    refine (bind_of_eq hprint _).trans ((ih _).trans ?_)
    simp [String.append_assoc]

end CommandLine

end Pdl
