import Pdl.Toml.Scan

/-!
# Quoted text

A text is quoted in one of four ways.  Between double quotes a backslash
starts an escape; between single quotes every character stands for itself.
Either kind may have one quote at each end, and then it stays on its line, or
three, and then it may hold newlines and up to two quotes in a row.

A newline right after three opening quotes does not belong to the text, and a
carriage return before a newline does not either.  Between three double quotes
a backslash at the end of a line takes away the newline and all space after
it.  Up to two of the quotes at the end of a text in three quotes may belong
to it, so five quotes in a row close a text that ends with two.
-/

namespace Pdl.Toml

/-- A way to quote a text. -/
structure Quoting where
  /-- Between double quotes, with escapes. -/
  escapes : Bool
  /-- Three quotes at each end. -/
  block : Bool
deriving Repr, DecidableEq

namespace Quoting

/-- The quote. -/
def quote (q : Quoting) : Char := if q.escapes then '"' else '\''

/-- What opens and closes the text. -/
def delimiter (q : Quoting) : List Char := List.replicate (if q.block then 3 else 1) q.quote

end Quoting

/-- The character whose code point the first `n` characters write. -/
def codePoint? (n : Nat) (cs : List Char) : Option (Char × List Char) :=
  (hexNumber? n cs).bind fun (code, r) =>
    if code.isValidChar then some (.ofNat code, r) else none

/-- The character of an escape, whose backslash has been read. -/
def escape? : Reader Char
  | 'b' :: r => some ('\x08', r)
  | 't' :: r => some ('\t', r)
  | 'n' :: r => some ('\n', r)
  | 'f' :: r => some ('\x0c', r)
  | 'r' :: r => some ('\r', r)
  | '"' :: r => some ('"', r)
  | '\\' :: r => some ('\\', r)
  | 'u' :: r => codePoint? 4 r
  | 'U' :: r => codePoint? 8 r
  | _ => none

/-- What follows the end of a line that a backslash hides, and the space after
it. -/
def hiddenLineEnd? (cs : List Char) : Option (List Char) :=
  (lineBreak? (skipBlanks cs)).map skipSpace

theorem length_codePoint? {n : Nat} {cs r : List Char} {c : Char}
    (h : codePoint? n cs = some (c, r)) : r.length ≤ cs.length := by
  obtain ⟨⟨code, s⟩, hs, h⟩ := Option.bind_eq_some_iff.1 h
  dsimp only at h
  split at h
  · cases h; exact length_hexNumber? hs
  · cases h

theorem length_escape? {cs r : List Char} {c : Char} (h : escape? cs = some (c, r)) :
    r.length < cs.length := by
  unfold escape? at h
  split at h
  case h_8 => have := length_codePoint? h; simp; omega
  case h_9 => have := length_codePoint? h; simp; omega
  case h_10 => cases h
  all_goals cases h; simp

theorem length_hiddenLineEnd? {cs r : List Char} (h : hiddenLineEnd? cs = some r) :
    r.length < cs.length := by
  obtain ⟨s, hs, rfl⟩ := Option.map_eq_some_iff.1 h
  have := length_lineBreak? hs
  have := length_skipBlanks cs
  have := length_skipSpace s
  omega

/-- The number of quotes at the front. -/
def quoteRun (q : Char) (cs : List Char) : Nat := (cs.takeWhile (· == q)).length

/-- The text up to the closing delimiter, which is read as well. -/
def Quoting.body (q : Quoting) : Reader (List Char)
  | [] => none
  | c :: r =>
      if c = q.quote then
        if q.block then
          let run := quoteRun c (c :: r)
          if run < 3 then (q.body r).map fun (s, r) => (c :: s, r)
          else if run ≤ 5 then some (List.replicate (run - 3) c, (c :: r).drop run)
          else none
        else some ([], r)
      else if c = '\\' ∧ q.escapes then
        match _hidden : if q.block then hiddenLineEnd? r else none with
        | some r' => q.body r'
        | none =>
            match _escape : escape? r with
            | some (e, r') => (q.body r').map fun (s, r) => (e :: s, r)
            | none => none
      else
        match _lineBreak : if q.block then lineBreak? (c :: r) else none with
        | some r' => (q.body r').map fun (s, r) => ('\n' :: s, r)
        | none =>
            if isTextChar c then (q.body r).map fun (s, r) => (c :: s, r) else none
termination_by cs => cs.length
decreasing_by
  · simp
  · split at _hidden
    · have := length_hiddenLineEnd? _hidden; simp; omega
    · simp at _hidden
  · have := length_escape? _escape; simp; omega
  · split at _lineBreak
    · exact length_lineBreak? _lineBreak
    · simp at _lineBreak
  · simp

/-- The text in this kind of quoting at the front. -/
def Quoting.text? (q : Quoting) (cs : List Char) : Option (List Char × List Char) :=
  if q.delimiter.isPrefixOf cs then
    let r := cs.drop q.delimiter.length
    q.body (if q.block then (lineBreak? r).getD r else r)
  else none

/-- The text on one line at the front. -/
def inlineText? (cs : List Char) : Option (List Char × List Char) :=
  match cs with
  | '"' :: _ => Quoting.text? ⟨true, false⟩ cs
  | _ => Quoting.text? ⟨false, false⟩ cs

/-- The text at the front, in any kind of quoting. -/
def anyText? (cs : List Char) : Option (List Char × List Char) :=
  match cs with
  | '"' :: '"' :: '"' :: _ => Quoting.text? ⟨true, true⟩ cs
  | '\'' :: '\'' :: '\'' :: _ => Quoting.text? ⟨false, true⟩ cs
  | _ => inlineText? cs

example : anyText? "\"a\\u00F1\\n\"x".toList = some ("añ\n".toList, ['x']) := by
  decide +kernel
example : anyText? "''x".toList = some ([], ['x']) := by decide +kernel
example : anyText? "'''\r\na''\r\nb'''''x".toList = some ("a''\nb''".toList, ['x']) := by
  decide +kernel
example : anyText? "\"\"\"a \\ \n\n b\"\"\"".toList = some ("a b".toList, []) := by
  decide +kernel
example : anyText? "\"\"\"a\"\"\"\"\"\"".toList = none := by decide +kernel

end Pdl.Toml
