import Pdl.Text.Escaped

/-!
# JSON

Values of the data format JSON and their printed form over several lines.
Numbers are natural numbers, and an object keeps its members in the order in
which they were put in.

A string is printed between double quotes.  The quote, the backslash and the
control characters below the space are escaped, and all other characters are
printed as they are.

A list or an object takes one line for each member, indented by two spaces
more than the line on which it begins.  An empty one is printed as `[]` or as
two braces.
-/

namespace Pdl

/-- A JSON value. -/
inductive Json where
  | null
  | bool (b : Bool)
  | number (n : Nat)
  | string (s : String)
  | array (items : List Json)
  | object (members : List (String × Json))

namespace Json

/-! ## Strings -/

/-- A number below 256 as four hexadecimal digits. -/
def fourHexDigits (n : Nat) : List Char :=
  ['0', '0', Nat.digitChar (n / 16), Nat.digitChar (n % 16)]

/-- A character inside a string. -/
def escapeChar (c : Char) : List Char :=
  if c = '"' then ['\\', '"']
  else if c = '\\' then ['\\', '\\']
  else if c = '\x08' then ['\\', 'b']
  else if c = '\x0c' then ['\\', 'f']
  else if c = '\n' then ['\\', 'n']
  else if c = '\r' then ['\\', 'r']
  else if c = '\t' then ['\\', 't']
  else if c.toNat < 0x20 then '\\' :: 'u' :: fourHexDigits c.toNat
  else [c]

/-- A string between its quotes. -/
def printString (s : String) : List Char := '"' :: s.toList.flatMap escapeChar ++ ['"']

/-! ## Values -/

/-- A new line, indented by `depth` steps. -/
def newline (depth : Nat) : List Char := '\n' :: List.replicate (2 * depth) ' '

mutual

/-- A value that begins on a line indented by `depth` steps. -/
def print (depth : Nat) : Json → List Char
  | null => "null".toList
  | bool b => (if b then "true" else "false").toList
  | number n => (toString n).toList
  | string s => printString s
  | array [] => ['[', ']']
  | array (v :: vs) =>
      '[' :: newline (depth + 1) ++ print (depth + 1) v ++ printItems (depth + 1) vs
        ++ newline depth ++ [']']
  | object [] => ['\x7b', '\x7d']
  | object (m :: ms) =>
      '\x7b' :: newline (depth + 1) ++ printMember (depth + 1) m ++ printMembers (depth + 1) ms
        ++ newline depth ++ ['\x7d']

/-- The members of a list after the first. -/
def printItems (depth : Nat) : List Json → List Char
  | [] => []
  | v :: vs => ',' :: newline depth ++ print depth v ++ printItems depth vs

/-- A member of an object. -/
def printMember (depth : Nat) : String × Json → List Char
  | (key, v) => printString key ++ [':', ' '] ++ print depth v

/-- The members of an object after the first. -/
def printMembers (depth : Nat) : List (String × Json) → List Char
  | [] => []
  | m :: ms => ',' :: newline depth ++ printMember depth m ++ printMembers depth ms

end

/-- The printed form of a value. -/
def text (v : Json) : String := String.ofList (v.print 0)

example : printString "a\"\x01ñ" = "\"a\\\"\\u0001ñ\"".toList := by decide +kernel
example : (object [("a", array []), ("b", array [number 1, null])]).text
    = "\x7b\n  \"a\": [],\n  \"b\": [\n    1,\n    null\n  ]\n\x7d" := by decide +kernel

end Json

end Pdl
