import Pdl.Text.Position
import Pdl.Text.Utf8

/-!
# Source texts

A source text is a name and its content.  Two kinds of places are looked up
in it: a line by its number, and a stretch by its byte offsets.

Lines are found through an index of the byte offsets at which they begin.
Each newline begins a line, so a text that ends with a newline has an empty
last line.  `Source.line?` gives the text of a line without its terminator,
which is a newline that may have a carriage return before it.

`Source.slice` gives the text that a span covers.  It fails with a cause that
tells the two ways apart in which a span can be wrong.
-/

namespace Pdl

/-- A text to analyse, with the name it goes by in messages. -/
structure Source where
  /-- The name, usually a path. -/
  name : String
  /-- The text. -/
  content : String
deriving Repr, DecidableEq, Inhabited

/-- Why a place is not in a source text. -/
inductive SourceError where
  /-- A span whose first offset is past its last. -/
  | reversed (first last : Nat)
  /-- A span that leaves the text of `size` bytes or ends inside a character. -/
  | outOfBounds (size first last : Nat)
  /-- A line that the text of `count` lines does not have. -/
  | noLine (line count : Nat)
deriving Repr, DecidableEq

namespace SourceError

/-- The message of the error. -/
def message : SourceError → String
  | reversed first last => "invalid span: start " ++ toString first ++ " > end " ++ toString last
  | outOfBounds size first last =>
      "span out of bounds: text has " ++ toString size ++ " bytes, span is " ++ toString first
        ++ ".." ++ toString last
  | noLine line count =>
      "invalid line number: " ++ toString line ++ " (text has " ++ toString count ++ " lines)"

end SourceError

/-- The offset after each newline of a text that stands at byte `offset`. -/
def newlineStops (offset : Nat) : List Char → List Nat
  | [] => []
  | c :: cs =>
      if c = '\n' then (offset + c.utf8Size) :: newlineStops (offset + c.utf8Size) cs
      else newlineStops (offset + c.utf8Size) cs

theorem length_newlineStops (n : Nat) (cs : List Char) :
    (newlineStops n cs).length = cs.count '\n' := by
  induction cs generalizing n with
  | nil => rfl
  | cons c cs ih => by_cases h : c = '\n' <;> simp [newlineStops, h, ih]

/-- A line without a carriage return at its end. -/
def dropReturn (cs : List Char) : List Char :=
  if cs.getLast? = some '\r' then cs.dropLast else cs

namespace Source

/-- The number of bytes. -/
def size (s : Source) : Nat := byteCount s.content.toList

/-- The byte offsets at which the lines begin. -/
def lineStarts (s : Source) : List Nat := 0 :: newlineStops 0 s.content.toList

/-- The number of lines. -/
def lineCount (s : Source) : Nat := s.lineStarts.length

/-- The byte offset at which line `k + 1` ends, its newline left out. -/
def lineStop (s : Source) (k : Nat) : Nat :=
  match s.lineStarts[k + 1]? with
  | some next => next - 1
  | none => s.size

/-- The text of line `n`, counted from one, without its terminator. -/
def line? (s : Source) : Nat → Option (List Char)
  | 0 => none
  | k + 1 => do
      let first ← s.lineStarts[k]?
      let cs ← sliceBytes first (s.lineStop k) s.content.toList
      return dropReturn cs

/-- The text that a span covers. -/
def slice (s : Source) (span : Span) : Except SourceError (List Char) :=
  if span.stop < span.start then .error (.reversed span.start span.stop)
  else match sliceBytes span.start span.stop s.content.toList with
    | some cs => .ok cs
    | none => .error (.outOfBounds s.size span.start span.stop)

theorem lineCount_eq (s : Source) :
    s.lineCount = 1 + s.content.toList.count '\n' := by
  rw [lineCount, lineStarts, List.length_cons, length_newlineStops, Nat.add_comm]

example : (Source.mk "" "ab\r\nc\n").lineStarts = [0, 4, 6] := by decide
example : (Source.mk "" "ab\r\nc\n").line? 1 = some "ab".toList := by decide
example : (Source.mk "" "ab\r\nc\n").line? 3 = some [] := by decide
example : (Source.mk "" "ab").line? 2 = none := by decide

end Source

end Pdl
