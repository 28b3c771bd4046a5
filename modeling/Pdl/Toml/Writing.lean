import Pdl.Toml.Quoting

/-!
# Written text

A text is written in the first of these ways that needs no escapes:

1. between double quotes, if it has no newline, backslash or double quote;
2. between single quotes, if it has no newline or single quote;
3. between three double quotes, if it has no backslash and no three double
   quotes in a row;
4. between three single quotes, if it has no three single quotes in a row.

Control characters other than tabs and newlines always need escapes.  Where
there is no way without, the text stands between three double quotes if it has
a newline and between double quotes otherwise.  If it has a newline, another
one follows the three quotes that open it.

Between double quotes a tab is written as an escape in any case, and so is a
double quote that follows two others written as they are.
-/

namespace Pdl.Toml

/-- Whether `c` needs an escape in every way of writing. -/
def needsEscape (c : Char) : Bool :=
  (c.toNat < 0x20 && c != '\t' && c != '\n') || c.toNat = 0x7F

/-- Whether `q` stands three times in a row. -/
def hasTriple (q : Char) : List Char → Bool
  | a :: b :: c :: r => (a = q && b = q && c = q) || hasTriple q (b :: c :: r)
  | _ => false

/-- The way in which a text is written. -/
def Quoting.choose (s : List Char) : Quoting :=
  let plain := !s.any needsEscape
  let newline := s.contains '\n'
  if plain && !s.contains '\\' && !s.contains '"' && !newline then ⟨true, false⟩
  else if plain && !s.contains '\'' && !newline then ⟨false, false⟩
  else if plain && !s.contains '\\' && !hasTriple '"' s then ⟨true, true⟩
  else if plain && !hasTriple '\'' s then ⟨false, true⟩
  else ⟨true, newline⟩

/-- A hexadecimal digit in upper case. -/
def upperHexDigit (n : Nat) : Char :=
  if n < 10 then .ofNat ('0'.toNat + n) else .ofNat ('A'.toNat + (n - 10))

/-- The code point of a character below `2 ^ 16` as an escape. -/
def hexEscape (c : Char) : List Char :=
  ['\\', 'u', upperHexDigit (c.toNat / 4096), upperHexDigit (c.toNat / 256 % 16),
    upperHexDigit (c.toNat / 16 % 16), upperHexDigit (c.toNat % 16)]

/-- A character other than a double quote as it stands between double
quotes. -/
def writtenChar (block : Bool) (c : Char) : List Char :=
  if c = '\x08' then ['\\', 'b']
  else if c = '\t' then ['\\', 't']
  else if c = '\n' then if block then ['\n'] else ['\\', 'n']
  else if c = '\x0c' then ['\\', 'f']
  else if c = '\r' then ['\\', 'r']
  else if c = '\\' then ['\\', '\\']
  else if needsEscape c then hexEscape c
  else [c]

/-- A text as it stands between double quotes; `run` counts the double quotes
before it that are written as they are. -/
def writtenChars (block : Bool) : Nat → List Char → List Char
  | _, [] => []
  | run, c :: cs =>
      if c = '"' then
        if block ∧ run < 2 then '"' :: writtenChars block (run + 1) cs
        else '\\' :: '"' :: writtenChars block 0 cs
      else writtenChar block c ++ writtenChars block 0 cs

/-- A text written in a way. -/
def Quoting.write (q : Quoting) (s : List Char) : List Char :=
  q.delimiter
    ++ (if q.block && s.contains '\n' then ['\n'] else [])
    ++ (if q.escapes then writtenChars q.block 0 s else s)
    ++ q.delimiter

/-- A written text. -/
def writeText (s : String) : String :=
  let cs := s.toList
  .ofList ((Quoting.choose cs).write cs)

/-- A line that gives a written value to a bare key. -/
def writeLine (key value : String) : String := key ++ " = " ++ value ++ "\n"

/-- A truth value. -/
def writeBoolean (b : Bool) : String := if b then "true" else "false"

example : writeText "a/b" = "\"a/b\"" := by decide +kernel
example : writeText "a\\b" = "'a\\b'" := by decide +kernel
example : writeText "a\nb'" = "\"\"\"\na\nb'\"\"\"" := by decide +kernel
example : writeText "\x01'" = "\"\\u0001'\"" := by decide +kernel
example : writeText "\x01\n\"\"\"" = "\"\"\"\n\\u0001\n\"\"\\\"\"\"\"" := by decide +kernel

end Pdl.Toml
