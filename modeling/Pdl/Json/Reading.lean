import Pdl.Json.Value
import Pdl.Text.Reader

/-!
# Reading JSON

`Json.read?` reads the value that a whole text holds.  It knows every text of
the format whose numbers are natural numbers, in whatever way it is spaced and
escaped, and refuses all others.

A string may not hold control characters.  A code point past `FFFF` is escaped
as a pair of surrogates, and a surrogate without its partner is refused.
-/

namespace Pdl.Json

/-- What follows the space at the front. -/
def skipSpace : List Char → List Char
  | ' ' :: r => skipSpace r
  | '\t' :: r => skipSpace r
  | '\n' :: r => skipSpace r
  | '\r' :: r => skipSpace r
  | cs => cs

/-! ## Strings -/

/-- The code point after `\u`. -/
def codePoint? (cs : List Char) : Option (Char × List Char) := do
  let (unit, r) ← hexNumber? 4 cs
  if 0xD800 ≤ unit ∧ unit ≤ 0xDBFF then
    let (low, r) ← hexNumber? 4 (← after? 'u' (← after? '\\' r))
    if 0xDC00 ≤ low ∧ low ≤ 0xDFFF then
      some (.ofNat (0x10000 + 0x400 * (unit - 0xD800) + (low - 0xDC00)), r)
    else none
  else if unit.isValidChar then some (.ofNat unit, r)
  else none

/-- The character of an escape, whose backslash has been read. -/
def escape? : Reader Char
  | '"' :: r => some ('"', r)
  | '\\' :: r => some ('\\', r)
  | '/' :: r => some ('/', r)
  | 'b' :: r => some ('\x08', r)
  | 'f' :: r => some ('\x0c', r)
  | 'n' :: r => some ('\n', r)
  | 'r' :: r => some ('\r', r)
  | 't' :: r => some ('\t', r)
  | 'u' :: r => codePoint? r
  | _ => none

theorem length_codePoint? {cs r : List Char} {c : Char} (h : codePoint? cs = some (c, r)) :
    r.length ≤ cs.length := by
  obtain ⟨⟨unit, s⟩, hs, h⟩ := Option.bind_eq_some_iff.1 h
  have hs := length_hexNumber? hs
  dsimp only at h
  split at h
  · obtain ⟨a, ha, h⟩ := Option.bind_eq_some_iff.1 h
    obtain ⟨b, hb, h⟩ := Option.bind_eq_some_iff.1 h
    obtain ⟨⟨low, t⟩, ht, h⟩ := Option.bind_eq_some_iff.1 h
    have ha := length_after? ha
    have hb := length_after? hb
    have ht := length_hexNumber? ht
    dsimp only at h
    split at h
    · obtain ⟨_, rfl⟩ := Prod.mk.inj (Option.some.inj h)
      omega
    · cases h
  · split at h
    · obtain ⟨_, rfl⟩ := Prod.mk.inj (Option.some.inj h)
      exact hs
    · cases h

theorem length_escape? {cs r : List Char} {c : Char} (h : escape? cs = some (c, r)) :
    r.length < cs.length := by
  unfold escape? at h
  split at h
  case h_9 => exact Nat.lt_succ_of_le (length_codePoint? h)
  case h_10 => cases h
  all_goals cases h; exact Nat.lt_succ_self _

/-- A string up to its closing quote, which is read as well. -/
def stringBody : Reader (List Char)
  | [] => none
  | c :: r =>
      if c = '"' then some ([], r)
      else if c = '\\' then
        match _escape : escape? r with
        | some (e, r') => (stringBody r').map fun (s, r) => (e :: s, r)
        | none => none
      else if c.toNat < 0x20 then none
      else (stringBody r).map fun (s, r) => (c :: s, r)
termination_by cs => cs.length
decreasing_by
  · have := length_escape? _escape
    exact Nat.lt_succ_of_lt this
  · exact Nat.lt_succ_self _

/-- A string. -/
def string? (cs : List Char) : Option (String × List Char) := do
  let (s, r) ← stringBody (← after? '"' cs)
  return (.ofList s, r)

/-! ## Numbers -/

/-- The number that digits write. -/
def digitsNumber (ds : List Char) : Nat :=
  ds.foldl (fun n d => 10 * n + (d.toNat - '0'.toNat)) 0

/-- A natural number without a zero before other digits. -/
def number? (cs : List Char) : Option (Nat × List Char) :=
  match cs.takeWhile Char.isDigit with
  | [] => none
  | '0' :: _ :: _ => none
  | ds => some (digitsNumber ds, cs.dropWhile Char.isDigit)

/-! ## Values -/

/-- Members with commas between them, up to and with a closing character; `n`
bounds their number. -/
def membersWithin {α : Type} (close : Char) (member : List Char → Option (α × List Char)) :
    Nat → List Char → Option (List α × List Char)
  | 0, _ => none
  | n + 1, cs => do
      let (a, r) ← member (skipSpace cs)
      match skipSpace r with
      | ',' :: r => do
          let (as, r) ← membersWithin close member n r
          return (a :: as, r)
      | r => return ([a], ← after? close r)

/-- Members up to and with a closing character. -/
def members? {α : Type} (close : Char) (member : List Char → Option (α × List Char))
    (cs : List Char) : Option (List α × List Char) :=
  match after? close (skipSpace cs) with
  | some r => some ([], r)
  | none => membersWithin close member cs.length cs

/-- A key and its value. -/
def member? (value : List Char → Option (Json × List Char)) (cs : List Char) :
    Option ((String × Json) × List Char) := do
  let (key, r) ← string? cs
  let (v, r) ← value (skipSpace (← after? ':' (skipSpace r)))
  return ((key, v), r)

/-- A value in which arrays and objects nest less than `n` deep. -/
def value? : Nat → List Char → Option (Json × List Char)
  | 0, _ => none
  | n + 1, cs =>
      match cs with
      | 'n' :: 'u' :: 'l' :: 'l' :: r => some (.null, r)
      | 't' :: 'r' :: 'u' :: 'e' :: r => some (.bool true, r)
      | 'f' :: 'a' :: 'l' :: 's' :: 'e' :: r => some (.bool false, r)
      | '"' :: _ => (string? cs).map fun (s, r) => (.string s, r)
      | '[' :: r => (members? ']' (value? n) r).map fun (vs, r) => (.array vs, r)
      | '\x7b' :: r => (members? '\x7d' (member? (value? n)) r).map fun (ms, r) => (.object ms, r)
      | _ => (number? cs).map fun (n, r) => (.number n, r)

/-- The value that a text holds. -/
def read? (text : String) : Option Json := do
  let cs := text.toList
  let (v, r) ← value? (cs.length + 1) (skipSpace cs)
  if skipSpace r = [] then some v else none

example : (read? " [1, \x7b\"a\\u00f1\\/\" :null\x7d]\n").map Json.text
    = some (array [number 1, object [("añ/", null)]]).text := by decide +kernel
example : (read? "\"\\ud83d\\ude00\"").map Json.text = some "\"😀\"" := by decide +kernel
example : (read? "[1,]").isNone ∧ (read? "01").isNone ∧ (read? "\"\\ud83d\"").isNone := by
  decide +kernel

end Pdl.Json
