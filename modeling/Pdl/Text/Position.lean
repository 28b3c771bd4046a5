/-!
# Positions and spans

A `Position` names one place of a source text three times over: by line and
column, both counted from one and in characters, and by the byte offset.  A
`Span` is a stretch of the text: two byte offsets and the line and column at
which it starts.

`Position.advance` moves a position over one character.  Positions are ordered
by line, then column, then offset (`Position.order`).
-/

namespace Pdl

/-! ## Positions -/

/-- A place in a source text. -/
structure Position where
  /-- The line, from one. -/
  line : Nat
  /-- The column in characters, from one. -/
  column : Nat
  /-- The byte offset, from zero. -/
  offset : Nat
deriving Repr, DecidableEq, Inhabited

namespace Position

/-- The beginning of every text. -/
def start : Position := ⟨1, 1, 0⟩

/-- The place after the character `c`.  Only a newline begins a line. -/
def advance (p : Position) (c : Char) : Position :=
  if c = '\n' then ⟨p.line + 1, 1, p.offset + c.utf8Size⟩
  else ⟨p.line, p.column + 1, p.offset + c.utf8Size⟩

/-- The place after all of `cs`. -/
def after (p : Position) (cs : List Char) : Position := cs.foldl advance p

@[simp] theorem after_nil (p : Position) : p.after [] = p := rfl

@[simp] theorem after_cons (p : Position) (c : Char) (cs : List Char) :
    p.after (c :: cs) = (p.advance c).after cs := rfl

theorem after_append (p : Position) (as bs : List Char) :
    p.after (as ++ bs) = (p.after as).after bs := by
  simp [after]

/-- The order by line, then column, then offset. -/
def order (p q : Position) : Ordering :=
  (compare p.line q.line).then ((compare p.column q.column).then (compare p.offset q.offset))

/-- The written form `line:column`. -/
def text (p : Position) : String := toString p.line ++ ":" ++ toString p.column

end Position

/-! ## Spans -/

/-- A stretch of a source text, with the place of its first character. -/
structure Span where
  /-- The byte offset of the first character. -/
  start : Nat
  /-- The byte offset after the last character. -/
  stop : Nat
  /-- The line of the first character. -/
  line : Nat
  /-- The column of the first character. -/
  column : Nat
deriving Repr, DecidableEq, Inhabited

namespace Span

/-- The span of what has no place in the text. -/
def nowhere : Span := ⟨0, 0, 0, 0⟩

/-- The stretch from `p` up to `q`. -/
def between (p q : Position) : Span := ⟨p.offset, q.offset, p.line, p.column⟩

/-- Where the span begins. -/
def position (s : Span) : Position := ⟨s.line, s.column, s.start⟩

/-- Whether the span covers no byte. -/
def isEmpty (s : Span) : Bool := s.start == s.stop

/-- The number of bytes covered. -/
def length (s : Span) : Nat := s.stop - s.start

end Span

example : Position.start.after "a\nñb".toList = ⟨2, 3, 5⟩ := by decide
example : Position.order ⟨1, 9, 8⟩ ⟨2, 1, 9⟩ = .lt := by decide

end Pdl
