import Pdl.Text.Source

/-!
# Quoted lines

A snippet quotes one line of the source text with carets under a part of it:

```text
  1 | put @;
    |     ^
```

The line number is right-aligned in a column of at least three characters.
The carets run from `startColumn` up to but not including `endColumn`; at
least one is drawn.

`Source.snippet` quotes the line on which a span starts.  A span that goes on
past the end of that line is underlined to its end, and an empty one by a
single caret.
-/

namespace Pdl

/-- `n` spaces. -/
def spaces (n : Nat) : String := String.ofList (List.replicate n ' ')

/-- The width of the column of line numbers in front of line `n`. -/
def marginWidth (n : Nat) : Nat := max 3 (toString n).length

/-- A quoted line with a part underlined. -/
structure Snippet where
  /-- The text of the line. -/
  line : String
  /-- The number of the line. -/
  number : Nat
  /-- The first underlined column, from one. -/
  startColumn : Nat
  /-- The column after the last underlined one. -/
  endColumn : Nat
  /-- A remark behind the carets. -/
  label : Option String := none
deriving Repr, DecidableEq

namespace Snippet

/-- The number of carets. -/
def caretCount (s : Snippet) : Nat := max 1 (s.endColumn - s.startColumn)

/-- The quoted line behind its number. -/
def quoteLine (s : Snippet) : String :=
  let number := toString s.number
  spaces (marginWidth s.number - number.length) ++ number ++ " | " ++ s.line

/-- The line of carets. -/
def caretLine (s : Snippet) : String :=
  spaces (marginWidth s.number) ++ " | " ++ spaces (s.startColumn - 1)
    ++ String.ofList (List.replicate s.caretCount '^')
    ++ (match s.label with
      | some label => " " ++ label
      | none => "")

/-- Both lines. -/
def text (s : Snippet) : String := s.quoteLine ++ "\n" ++ s.caretLine

end Snippet

namespace Source

/-- The number of characters of a span on its first line. -/
def firstLineWidth (s : Source) (span : Span) : Nat :=
  match s.slice span with
  | .ok cs => (cs.takeWhile (· != '\n')).length
  | .error _ => 0

/-- The quoted line of a span. -/
def snippet (s : Source) (span : Span) : Except SourceError Snippet :=
  match s.line? span.line with
  | none => .error (.noLine span.line s.lineCount)
  | some line =>
      let reach := min (span.column + s.firstLineWidth span) (line.length + 1)
      .ok {
        line := String.ofList line
        number := span.line
        startColumn := span.column
        endColumn := max reach (span.column + 1) }

end Source

example : (Snippet.mk "put @;" 1 5 6 (some "here")).text = "  1 | put @;\n    |     ^ here" := by
  decide +kernel
example : ((Source.mk "" "let s = \"ab\nc").snippet ⟨8, 11, 1, 9⟩).toOption.map (·.endColumn)
    = some 12 := by decide +kernel

end Pdl
