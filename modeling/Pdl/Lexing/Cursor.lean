import Pdl.Text.Position
import Pdl.Text.Utf8

/-!
# Cursors

A cursor stands between two characters of a text.  It knows what it has
passed, what is left, and its own position, which it keeps up to date as it
moves.  It only moves forward.

`peek?` looks ahead without a move.  In front of ASCII text the byte there is the
character, so that no characters are counted (`asciiAhead?`).

`move` is the one way to move; `advance?`, `accept?` and `skipWhile` are made
of it.  `text_move` says that moving leaves the whole text as it is.
-/

namespace Pdl

/-- A place between two characters of a text. -/
structure Cursor where
  /-- The characters before the cursor, the nearest first. -/
  passed : List Char
  /-- The characters after the cursor. -/
  rest : List Char
  /-- The place. -/
  position : Position
deriving Repr, DecidableEq

namespace Cursor

/-- The cursor before the whole of a text. -/
def ofText (text : String) : Cursor := ⟨[], text.toList, .start⟩

/-- The whole text. -/
def text (c : Cursor) : List Char := c.passed.reverse ++ c.rest

/-- Whether nothing is left. -/
def isAtEnd (c : Cursor) : Bool := c.rest.isEmpty

/-- The bytes after the cursor. -/
def restBytes (c : Cursor) : ByteArray := (String.ofList c.rest).toUTF8

/-- The byte `n` places ahead as a character, if it and all before it are ASCII. -/
def asciiAhead? (c : Cursor) (n : Nat) : Option Char :=
  match c.restBytes[n]? with
  | some byte => if isAscii (c.restBytes.extract 0 (n + 1)) then some (Char.ofUInt8 byte) else none
  | none => none

/-- The character `n` places ahead. -/
def peek? (c : Cursor) (n : Nat) : Option Char := c.asciiAhead? n <|> c.rest[n]?

/-- The cursor `n` characters further on, or at the end. -/
def move (c : Cursor) (n : Nat) : Cursor where
  passed := (c.rest.take n).reverse ++ c.passed
  rest := c.rest.drop n
  position := c.position.after (c.rest.take n)

/-- The next character, and the cursor after it. -/
def advance? (c : Cursor) : Option (Char × Cursor) :=
  c.rest.head?.map fun ch => (ch, c.move 1)

/-- The cursor after `ch`, if that is the next character. -/
def accept? (c : Cursor) (ch : Char) : Option Cursor :=
  if c.peek? 0 = some ch then some (c.move 1) else none

/-- How many characters in a row satisfy `p`. -/
def runLength (p : Char → Bool) (c : Cursor) : Nat := (c.rest.takeWhile p).length

/-- The cursor after all characters in a row that satisfy `p`. -/
def skipWhile (p : Char → Bool) (c : Cursor) : Cursor := c.move (c.runLength p)

/-- The text from the byte offset `first` up to the cursor. -/
def sliceFrom? (c : Cursor) (first : Nat) : Option (List Char) :=
  dropBytes first c.passed.reverse

@[simp] theorem text_move (c : Cursor) (n : Nat) : (c.move n).text = c.text := by
  simp [move, text, List.append_assoc]

theorem move_zero (c : Cursor) : c.move 0 = c := by
  simp [move]

theorem move_move (c : Cursor) (m n : Nat) : (c.move m).move n = c.move (m + n) := by
  simp [move, List.take_add, Position.after_append]

theorem length_rest_move (c : Cursor) (n : Nat) :
    (c.move n).rest.length = c.rest.length - n := by
  simp [move]

theorem position_move (c : Cursor) (n : Nat) :
    (c.move n).position = c.position.after (c.rest.take n) := rfl

end Cursor

example : ((Cursor.ofText "añ\nb").move 3).position = ⟨2, 1, 4⟩ := by decide
example : ((Cursor.ofText "añ\nb").move 3).sliceFrom? 1 = some ['ñ', '\n'] := by decide
example : ((Cursor.ofText "añ\nb").move 3).sliceFrom? 2 = none := by decide

end Pdl
