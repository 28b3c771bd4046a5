import Pdl.Text.Split

/-!
# Paths

A path is a text in which slashes separate names.  Empty names do not count,
so `a//b/` has the names `a` and `b`.  A path that begins with a slash starts
at the root of the tree, every other one at the current directory.

`Path.ancestors` lists a path and the directories above it, nearest first.
For these a name `.` does not count either, unless the path begins with it:
the directory above `a/./b` is `a`.
-/

namespace Pdl

/-- The place of a file or directory, as text. -/
abbrev Path := String

namespace Path

/-- Whether a path starts at the root. -/
def isAbsolute (p : Path) : Bool := p.toList.head? == some '/'

/-- Whether a path ends with a slash. -/
def endsWithSlash (p : Path) : Bool := p.toList.getLast? == some '/'

/-- The names of a path. -/
def names (p : Path) : List String :=
  ((splitAtChar '/' p.toList).filter (· != [])).map String.ofList

/-- Path `p` and then `name` below it. -/
def join (p : Path) (name : String) : Path :=
  if p = "" || p.endsWithSlash then p ++ name else p ++ "/" ++ name

/-- The names of a path without those that say `.` past the first. -/
def steps (p : Path) : List String :=
  match p.isAbsolute, p.names with
  | false, n :: ns => n :: ns.filter (· != ".")
  | _, ns => ns.filter (· != ".")

/-- The path with these names that starts where `p` does. -/
def withSteps (p : Path) (ns : List String) : Path :=
  (if p.isAbsolute then "/" else "") ++ "/".intercalate ns

/-- The paths of the directories above `p`, nearest first.  The last of them
is the root or the empty path. -/
def parents (p : Path) : List Path :=
  (List.range p.steps.length).reverse.map fun n => p.withSteps (p.steps.take n)

/-- The path of the directory that holds `p`; none for the root and for the
empty path. -/
def parent? (p : Path) : Option Path := p.parents.head?

/-- A path and the directories above it, nearest first. -/
def ancestors (p : Path) : List Path := p :: p.parents

end Path

example : Path.names "a//b/" = ["a", "b"] := by decide +kernel
example : Path.parents "a/./b/c" = ["a/b", "a", ""] := by decide +kernel
example : Path.parent? "./z" = some "." ∧ Path.parent? "." = some "" := by decide +kernel
example : Path.parent? "/" = none ∧ Path.parent? "/z" = some "/" := by decide +kernel
example : Path.join "" "x" = "x" ∧ Path.join "d/" "x" = "d/x" ∧ Path.join "d" "x" = "d/x" := by
  decide +kernel

end Pdl
