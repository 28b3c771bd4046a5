import Pdl.Toml.Moment
import Pdl.Toml.Number

/-!
# Values and tables

A table has entries, each with a key of its own, in the order in which they
were made.  How a table came to be decides how it may still grow.

* A header opens a table, and no other header may open it again.
* A header passes through the tables on its way.  One that was made so may
  still be opened.
* A dotted key makes the tables on its way, and no header may open them.
* An inline table is complete as it stands.

A dotted key goes only through tables that no header has opened and no braces
have closed, and it puts its value only into one that dotted keys have made.

A header in double brackets adds an element to a list of tables.  A path goes
through such a list by its last element.
-/

namespace Pdl.Toml

/-- How a table came to be. -/
inductive Origin where
  /-- By its own header. -/
  | opened
  /-- On the way of a header. -/
  | passed
  /-- On the way of a dotted key. -/
  | dotted
  /-- Between braces. -/
  | inline
deriving Repr, DecidableEq

/-- A value. -/
inductive Value where
  | text (s : String)
  | integer (n : Int)
  | floating (x : Floating)
  | boolean (b : Bool)
  | moment (m : Moment)
  /-- A list between brackets. -/
  | array (items : List Value)
  | table (origin : Origin) (entries : List (String × Value))
  /-- Tables that headers in double brackets have added. -/
  | tables (elements : List (List (String × Value)))
deriving Repr

/-- The entries of a table. -/
abbrev Entries := List (String × Value)

namespace Entries

/-- The entries with `v` in the place of what `key` has, or at the end. -/
def put (key : String) (v : Value) : Entries → Entries
  | [] => [(key, v)]
  | e :: es => if e.1 = key then (key, v) :: es else e :: put key v es

/-- The last element of a list of tables after a change to it. -/
def changeLast (f : Entries → Option Entries) (elements : List Entries) : Option (List Entries) :=
  (f (elements.getLast?.getD [])).map fun es => elements.dropLast ++ [es]

/-- Gives a value to a key that may have dots. -/
def insert : List String → Value → Entries → Option Entries
  | [], _, _ => none
  | [key], v, es => if (es.lookup key).isSome then none else some (es ++ [(key, v)])
  | key :: rest, v, es =>
      match es.lookup key with
      | none => (insert rest v []).map fun sub => es ++ [(key, .table .dotted sub)]
      | some (.table origin sub) =>
          if origin = .dotted ∨ (origin = .passed ∧ rest.length ≠ 1) then
            (insert rest v sub).map fun sub => put key (.table origin sub) es
          else none
      | some (.tables elements) =>
          if rest.length ≠ 1 then
            (changeLast (insert rest v) elements).map fun elements =>
              put key (.tables elements) es
          else none
      | some _ => none

/-- Changes the table that holds the last key of a header, by a function of
that key. -/
def within (f : String → Entries → Option Entries) : List String → Entries → Option Entries
  | [], _ => none
  | [key], es => f key es
  | key :: rest, es =>
      match es.lookup key with
      | none => (within f rest []).map fun sub => es ++ [(key, .table .passed sub)]
      | some (.table origin sub) =>
          if origin = .inline then none
          else (within f rest sub).map fun sub => put key (.table origin sub) es
      | some (.tables elements) =>
          (changeLast (within f rest) elements).map fun elements => put key (.tables elements) es
      | some _ => none

/-- Opens a table and fills it. -/
def openTable (fill : Entries → Option Entries) (key : String) (es : Entries) : Option Entries :=
  match es.lookup key with
  | none => (fill []).map fun sub => es ++ [(key, .table .opened sub)]
  | some (.table .passed sub) => (fill sub).map fun sub => put key (.table .opened sub) es
  | some _ => none

/-- Adds a table to a list of tables and fills it. -/
def addTable (fill : Entries → Option Entries) (key : String) (es : Entries) : Option Entries :=
  match es.lookup key with
  | none => (fill []).map fun sub => es ++ [(key, .tables [sub])]
  | some (.tables elements) =>
      (fill []).map fun sub => put key (.tables (elements ++ [sub])) es
  | some _ => none

/-- Gives values to keys one after the other. -/
def insertAll (pairs : List (List String × Value)) (es : Entries) : Option Entries :=
  pairs.foldlM (fun es p => insert p.1 p.2 es) es

end Entries

end Pdl.Toml
