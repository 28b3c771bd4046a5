import Pdl.Files.Path

/-!
# File trees

A file tree holds directories and regular files, each at a location: the list
of the names that lead to it from the root.  It also knows the directory at
which relative paths start.

A path leads to a location by a walk over its names.  The walk goes through
directories only, and `FileTree.resolve` says why it fails.  The last name
need not exist, so that a path can name a file that is still to be made.

The operations answer a value or a cause, and a failed one has changed
nothing.  `find?_set` says that a written entry is found and that all others
are as they were.
-/

namespace Pdl

/-- Why an operation on files fails. -/
inductive FileError where
  /-- Nothing is there. -/
  | notFound
  /-- Something is already there. -/
  | alreadyExists
  /-- A file stands where the path needs a directory. -/
  | notDirectory
  /-- A directory stands where the operation needs a file. -/
  | isDirectory
  /-- A name is longer than 255 bytes, or a path than 4095. -/
  | nameTooLong
  /-- The path holds the character NUL. -/
  | nulInPath
  /-- The bytes are not text in UTF-8. -/
  | notText
  /-- Another failure of the system, with its message. -/
  | system (message : String)
deriving Repr, DecidableEq

namespace FileError

/-- The message of the error. -/
def message : FileError → String
  | notFound => "No such file or directory (os error 2)"
  | alreadyExists => "File exists (os error 17)"
  | notDirectory => "Not a directory (os error 20)"
  | isDirectory => "Is a directory (os error 21)"
  | nameTooLong => "File name too long (os error 36)"
  | nulInPath => "file name contained an unexpected NUL byte"
  | notText => "stream did not contain valid UTF-8"
  | system message => message

end FileError

/-- The names that lead to an entry from the root. -/
abbrev Location := List String

/-- What stands at a location. -/
inductive Entry where
  | directory
  | file (content : ByteArray)

/-- Whether an entry is a directory. -/
def Entry.isDirectory : Entry → Bool
  | directory => true
  | file _ => false

/-- Directories and files, and the directory at which relative paths start. -/
structure FileTree where
  /-- The current directory. -/
  current : Location
  /-- The entries below the root. -/
  entries : List (Location × Entry)

namespace FileTree

/-- What stands at a location.  The root is always a directory. -/
def find? (t : FileTree) (l : Location) : Option Entry :=
  if l = [] then some .directory else t.entries.lookup l

/-- The content of the regular file at a location. -/
def content? (t : FileTree) (l : Location) : Option ByteArray :=
  match t.find? l with
  | some (.file content) => some content
  | _ => none

/-- The tree with an entry at a location below the root. -/
def set (t : FileTree) (l : Location) (e : Entry) : FileTree :=
  { t with entries := (l, e) :: t.entries.filter (·.1 != l) }

theorem lookup_filter_ne {l k : Location} (h : k ≠ l) (es : List (Location × Entry)) :
    (es.filter (·.1 != l)).lookup k = es.lookup k := by
  induction es with
  | nil => rfl
  | cons e es ih =>
    obtain ⟨i, e⟩ := e
    by_cases hi : i = l
    · subst hi
      simp [ih, List.lookup_cons, beq_eq_false_iff_ne.2 h]
    · simp [hi, List.lookup_cons, ih]

theorem find?_set (t : FileTree) {l : Location} (hl : l ≠ []) (e : Entry) (k : Location) :
    (t.set l e).find? k = if k = l then some e else t.find? k := by
  by_cases h : k = l
  · subst h; simp [find?, set, hl]
  · simp [find?, set, h, List.lookup_cons, beq_eq_false_iff_ne.2 h, lookup_filter_ne h]

@[simp] theorem current_set (t : FileTree) (l : Location) (e : Entry) :
    (t.set l e).current = t.current := rfl

/-! ## Walks -/

/-- The location one name away. -/
def step (l : Location) (name : String) : Location :=
  if name = "." then l
  else if name = ".." then l.dropLast
  else l ++ [name]

/-- The location to which names lead from `l`. -/
def walk (t : FileTree) : Location → List String → Except FileError Location
  | l, [] => .ok l
  | l, n :: ns =>
      match t.find? l with
      | none => .error .notFound
      | some (.file _) => .error .notDirectory
      | some .directory =>
          if 255 < n.utf8ByteSize then .error .nameTooLong else t.walk (step l n) ns

/-- The location to which names lead from where a path starts. -/
def walkFrom (t : FileTree) (p : Path) (names : List String) : Except FileError Location :=
  if p.toList.contains '\x00' then .error .nulInPath
  else if p = "" then .error .notFound
  else if 4095 < p.utf8ByteSize then .error .nameTooLong
  else t.walk (if p.isAbsolute then [] else t.current) names

/-- The location to which a path leads. -/
def resolve (t : FileTree) (p : Path) : Except FileError Location := t.walkFrom p p.names

/-- The directory that holds the last name of a path. -/
def holder (t : FileTree) (p : Path) : Except FileError Location :=
  t.walkFrom p (p.names.dropLast ++ ["."])

/-! ## Operations -/

/-- What stands at a path.  A path that ends with a slash names a directory. -/
def status (t : FileTree) (p : Path) : Except FileError Entry := do
  match t.find? (← t.resolve p) with
  | none => throw .notFound
  | some .directory => pure .directory
  | some (.file content) =>
      if p.endsWithSlash then throw .notDirectory else pure (.file content)

/-- Whether something stands at a path. -/
def contains (t : FileTree) (p : Path) : Bool := (t.status p).toOption.isSome

/-- Whether a directory stands at a path. -/
def isDirectory (t : FileTree) (p : Path) : Bool := (t.status p).toOption.any Entry.isDirectory

/-- The text of the file at a path. -/
def readText (t : FileTree) (p : Path) : Except FileError String := do
  match ← t.status p with
  | .directory => throw .isDirectory
  | .file content => match String.fromUTF8? content with
    | some text => pure text
    | none => throw .notText

/-- Whether the last name of a path is one that every directory has. -/
def endsWithDots (p : Path) : Bool :=
  match p.names.getLast? with
  | some n => n = "." || n = ".."
  | none => true

/-- Makes a directory in a directory that is there. -/
def makeDirectory (t : FileTree) (p : Path) : Except FileError FileTree := do
  let l ← t.resolve p
  if endsWithDots p || (t.find? l).isSome then throw .alreadyExists
  else pure (t.set l .directory)

/-- Makes the file at a path, or replaces it, with a text as its content.  Where
the path ends with a slash its last name is not looked at. -/
def writeText (t : FileTree) (p : Path) (text : String) : Except FileError FileTree := do
  if p.endsWithSlash then
    let _ ← t.holder p
    throw .isDirectory
  let l ← t.resolve p
  if endsWithDots p || (t.find? l).any Entry.isDirectory then throw .isDirectory
  else pure (t.set l (.file text.toUTF8))

end FileTree

private def sample : FileTree :=
  ⟨["w"], [(["w"], .directory), (["w", "d"], .directory), (["w", "f"], .file "x".toUTF8)]⟩

example : (sample.resolve "d/../e").toOption = some ["w", "e"] := by decide +kernel
example : (sample.resolve "f/e").toOption = none := by decide +kernel
example : (sample.makeDirectory "f").toOption.isNone := by decide +kernel
example : (sample.readText "/w/f").toOption = some "x" := by decide +kernel
example : (sample.readText "d").toOption = none := by decide +kernel
example : sample.contains "f/" = false ∧ sample.contains "d/." := by decide +kernel
example : (sample.holder "d/e/").toOption = some ["w", "d"] := by decide +kernel
example : (sample.holder "f/e/").toOption = none := by decide +kernel

end Pdl
