import Pdl.Diagnostic.Basic
import Pdl.Diagnostic.Snippet

/-!
# The listing of diagnostics

Each diagnostic takes a block of lines, and an empty line follows it:

```text
error[E1001]: invalid character '@'
  --> input.txt:1:5
    |
  1 | put @;
    |     ^
    = note: a remark
    = help: an advice

```

The quoted line is left out when the source text has no such line.  The last
line of the listing counts errors and warnings.
-/

namespace Pdl

/-- The lines of one diagnostic. -/
def Diagnostic.block (source : Source) (d : Diagnostic) : List String :=
  let width := marginWidth d.span.line
  [d.headline, spaces (width - 1) ++ "--> " ++ source.name ++ ":" ++ d.span.position.text]
    ++ (match source.snippet d.span with
      | .ok s => [spaces width ++ " |", s.text]
      | .error _ => [])
    ++ d.notes.map (spaces width ++ " = note: " ++ ·)
    ++ d.helps.map (spaces width ++ " = help: " ++ ·)

/-- Lines as one text, each with its newline. -/
def unlines (lines : List String) : String := String.join (lines.map (· ++ "\n"))

/-- All diagnostics with their quoted lines, and the summary. -/
def listing (source : Source) (ds : List Diagnostic) : String :=
  unlines (ds.flatMap (fun d => d.block source ++ [""]) ++ [summary ds])

example : listing ⟨"t", "put @;"⟩ [⟨.error, "m", ⟨4, 5, 1, 5⟩, some ⟨"E", 1⟩, [], ["h"]⟩]
    = "error[E0001]: m\n  --> t:1:5\n    |\n  1 | put @;\n    |     ^\n    = help: h\n\n"
      ++ "1 error(s), 0 warning(s)\n" := by decide +kernel

end Pdl
