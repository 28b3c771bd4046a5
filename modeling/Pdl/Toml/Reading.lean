import Pdl.Toml.Quoting
import Pdl.Toml.Value

/-!
# Keys and values

A key has one part or more with dots between them.  A part is a run of
letters, digits, hyphens and underscores, or a quoted text on one line.

A value is a quoted text, a number, a moment, `true` or `false`, an array or
an inline table.  In an array there may be newlines and comments, and a comma
after the last item.  An inline table has neither.

Both arrays and inline tables nest at most `maxDepth` deep, and a key has at
most so many parts.
-/

namespace Pdl.Toml

/-- The number of levels that arrays and inline tables may nest, and of parts
that a key may have. -/
def maxDepth : Nat := 79

/-! ## Keys -/

/-- Whether `c` may stand in a key without quotes. -/
def isBareChar (c : Char) : Bool := c.isAlphanum || c = '-' || c = '_'

/-- One part of a key. -/
def keyPart? (cs : List Char) : Option (String × List Char) :=
  match cs with
  | '"' :: _ => (inlineText? cs).map fun (s, r) => (.ofList s, r)
  | '\'' :: _ => (inlineText? cs).map fun (s, r) => (.ofList s, r)
  | _ =>
      let part := cs.takeWhile isBareChar
      if part = [] then none else some (.ofList part, cs.dropWhile isBareChar)

/-- A key of at most `n` parts, and the blanks after it. -/
def key? : Nat → List Char → Option (List String × List Char)
  | 0, _ => none
  | n + 1, cs => do
      let (part, r) ← keyPart? (skipBlanks cs)
      match skipBlanks r with
      | '.' :: r => do
          let (parts, r) ← key? n r
          return (part :: parts, r)
      | r => return ([part], r)

/-! ## Values -/

/-- The items of an array up to its closing bracket, which is read as well;
`n` bounds their number. -/
def itemsWithin (value : List Char → Option (Value × List Char)) :
    Nat → List Char → Option (List Value × List Char)
  | 0, _ => none
  | n + 1, cs =>
      match skipFiller cs with
      | ']' :: r => some ([], r)
      | cs => do
          let (v, r) ← value cs
          match skipFiller r with
          | ']' :: r => return ([v], r)
          | ',' :: r => do
              let (vs, r) ← itemsWithin value n r
              return (v :: vs, r)
          | _ => none

/-- A key, an equals sign and a value, with the blanks around them. -/
def pair? (value : List Char → Option (Value × List Char)) (cs : List Char) :
    Option ((List String × Value) × List Char) := do
  let (key, r) ← key? maxDepth cs
  let (v, r) ← value (skipBlanks (← after? '=' r))
  return ((key, v), skipBlanks r)

/-- The pairs of an inline table up to its closing brace, which is read as
well; `n` bounds their number. -/
def pairsWithin (value : List Char → Option (Value × List Char)) :
    Nat → List Char → Option (List (List String × Value) × List Char)
  | 0, _ => none
  | n + 1, cs => do
      let (p, r) ← pair? value cs
      match r with
      | '\x7d' :: r => return ([p], r)
      | ',' :: r => do
          let (ps, r) ← pairsWithin value n r
          return (p :: ps, r)
      | _ => none

/-- An array, after its opening bracket. -/
def array? (value : List Char → Option (Value × List Char)) (cs : List Char) :
    Option (Value × List Char) :=
  (itemsWithin value (cs.length + 1) cs).map fun (vs, r) => (.array vs, r)

/-- An inline table, after its opening brace. -/
def inlineTable? (value : List Char → Option (Value × List Char)) (cs : List Char) :
    Option (Value × List Char) :=
  match skipBlanks cs with
  | '\x7d' :: r => some (.table .inline [], r)
  | _ => do
      let (ps, r) ← pairsWithin value (cs.length + 1) cs
      return (.table .inline (← Entries.insertAll ps []), r)

/-- A value that holds no other. -/
def plain? (cs : List Char) : Option (Value × List Char) :=
  match cs with
  | '"' :: _ => (anyText? cs).map fun (s, r) => (.text (.ofList s), r)
  | '\'' :: _ => (anyText? cs).map fun (s, r) => (.text (.ofList s), r)
  | 't' :: 'r' :: 'u' :: 'e' :: r => some (.boolean true, r)
  | 'f' :: 'a' :: 'l' :: 's' :: 'e' :: r => some (.boolean false, r)
  | _ =>
      if startsMoment cs then (moment cs).map fun (m, r) => (.moment m, r)
      else (number cs).map fun (n, r) => (n.elim .integer .floating, r)

/-- A value in which arrays and inline tables nest at most so many levels. -/
def value? : Nat → List Char → Option (Value × List Char)
  | 0, cs =>
      match cs with
      | '[' :: _ => none
      | '\x7b' :: _ => none
      | _ => plain? cs
  | n + 1, cs =>
      match cs with
      | '[' :: r => array? (value? n) r
      | '\x7b' :: r => inlineTable? (value? n) r
      | _ => plain? cs

end Pdl.Toml
