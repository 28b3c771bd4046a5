import Pdl.Files.Tree

/-!
# Access to files

A program that works with files is written over any monad that gives access to
them, so that it runs on the files of the system and on a file tree alike.
The tree is the state of `StateM FileTree`, and there a failed operation
leaves it as it was.

`makeDirectories` makes a directory and those above it that are missing.  A
directory that is already there is no failure.
-/

namespace Pdl

/-- The operations on files that a program may use. -/
class FileAccess (m : Type → Type) where
  /-- Whether something stands at a path. -/
  contains : Path → m Bool
  /-- Whether a directory stands at a path. -/
  isDirectory : Path → m Bool
  /-- The text of the file at a path. -/
  readText : Path → m (Except FileError String)
  /-- Makes a directory in a directory that is there. -/
  makeDirectory : Path → m (Except FileError Unit)
  /-- Makes the file at a path, or replaces it, with a text as its content. -/
  writeText : Path → String → m (Except FileError Unit)

namespace FileTree

/-- A change that is made only if it succeeds. -/
def attempt (f : FileTree → Except FileError FileTree) : StateM FileTree (Except FileError Unit) :=
  fun t => match f t with
    | .ok u => (.ok (), u)
    | .error e => (.error e, t)

instance : FileAccess (StateM FileTree) where
  contains p := return (← get).contains p
  isDirectory p := return (← get).isDirectory p
  readText p := return (← get).readText p
  makeDirectory p := attempt (·.makeDirectory p)
  writeText p text := attempt (·.writeText p text)

end FileTree

section

variable {m : Type → Type} [Monad m] [FileAccess m]

/-- Makes the first directory of a list, in which each one lies in the next,
and before it those that are missing. -/
def makeFirst : List Path → m (Except FileError Unit)
  | [] => return .error .notFound
  | p :: ps => do
      if p = "" then return .ok ()
      match ← FileAccess.makeDirectory p with
      | .ok () => return .ok ()
      | .error .notFound =>
          match ← makeFirst ps with
          | .error e => return .error e
          | .ok () => settle p (← FileAccess.makeDirectory p)
      | .error e => settle p (.error e)
where
  /-- A failure does not count where the directory is there after all. -/
  settle (p : Path) : Except FileError Unit → m (Except FileError Unit)
    | .ok () => return .ok ()
    | .error e => do
        if ← FileAccess.isDirectory p then return .ok () else return .error e

/-- Makes a directory and those above it that are missing. -/
def makeDirectories (p : Path) : m (Except FileError Unit) := makeFirst p.ancestors

end

private def bare : FileTree := ⟨[], [(["f"], .file "x".toUTF8)]⟩

example : ((makeDirectories "a/./b/../c" : StateM FileTree _) bare).2.isDirectory "a/c" := by decide +kernel
example : ((makeDirectories "f/x" : StateM FileTree _) bare).1.toOption = none := by
  decide +kernel

end Pdl
