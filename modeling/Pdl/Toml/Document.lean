import Pdl.Toml.Reading

/-!
# Documents

A document is a sequence of lines.  A line is empty, gives a value to a key,
or is a header.  A header in brackets opens a table, and one in double
brackets adds a table to a list; the pairs up to the next header go into that
table.  The pairs before the first header belong to the document itself.

`Document.read?` answers the entries of a document.
-/

namespace Pdl.Toml

/-- What a line of a document says. -/
inductive Line where
  /-- A value for a key. -/
  | pair (key : List String) (v : Value)
  /-- A header in brackets. -/
  | header (key : List String)
  /-- A header in double brackets. -/
  | element (key : List String)
deriving Repr

/-- The line at the front and what follows it; nothing if the line is empty. -/
def line? (cs : List Char) : Option (Option Line × List Char) :=
  match skipBlanks cs with
  | '[' :: '[' :: r => do
      let (key, r) ← key? maxDepth r
      return (some (.element key), ← lineEnd? (← after? ']' (← after? ']' r)))
  | '[' :: r => do
      let (key, r) ← key? maxDepth r
      return (some (.header key), ← lineEnd? (← after? ']' r))
  | cs =>
      match lineEnd? cs with
      | some r => some (none, r)
      | none => do
          let ((key, v), r) ← pair? (value? maxDepth) cs
          return (some (.pair key v), ← lineEnd? r)

/-- The lines of a text; `n` bounds their number. -/
def linesWithin : Nat → List Char → Option (List Line)
  | _, [] => some []
  | 0, _ => none
  | n + 1, cs => do
      let (l, r) ← line? cs
      return l.toList ++ (← linesWithin n r)

/-- A header and the pairs up to the next one. -/
structure Section where
  /-- Whether the header stands in double brackets. -/
  element : Bool
  key : List String
  pairs : List (List String × Value)
deriving Repr

/-- The pairs before the first header, and the sections from it on. -/
def sections : List Line → List (List String × Value) × List Section
  | [] => ([], [])
  | .pair key v :: ls => let (ps, ss) := sections ls; ((key, v) :: ps, ss)
  | .header key :: ls => let (ps, ss) := sections ls; ([], ⟨false, key, ps⟩ :: ss)
  | .element key :: ls => let (ps, ss) := sections ls; ([], ⟨true, key, ps⟩ :: ss)

/-- Adds a section to a document. -/
def Section.addTo (es : Entries) (s : Section) : Option Entries :=
  let fill := Entries.insertAll s.pairs
  Entries.within (if s.element then Entries.addTable fill else Entries.openTable fill) s.key es

/-- The entries of a document.  A byte order mark before it does not count. -/
def Document.read? (text : String) : Option Entries := do
  let cs := match text.toList with
    | '\uFEFF' :: cs => cs
    | cs => cs
  let (ps, ss) := sections (← linesWithin (cs.length + 1) cs)
  ss.foldlM Section.addTo (← Entries.insertAll ps [])

end Pdl.Toml
