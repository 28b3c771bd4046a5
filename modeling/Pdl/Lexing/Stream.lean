import Pdl.Lexing.Cursor
import Pdl.Lexing.Scan
import Pdl.SymbolTable

/-!
# Streams of tokens

A source text is cut into tokens from its beginning to its end, blanks and
comments included, and one token of kind `endOfInput` closes the list.

A `Lexer` gives the tokens one by one.  It keeps the symbol table of the
identifiers it has given, and reports what is wrong with a lexeme when it gives
it.  After the end it goes on giving `endOfInput` through `nextToken`, and
nothing through `next?`.

`tokenize` takes all tokens from a lexer.
-/

namespace Pdl

/-- The table with the token, if that is an identifier. -/
def SymbolTable.recordToken (table : SymbolTable) (t : Token) : SymbolTable :=
  if t.kind = .identifier then table.record t.lexeme t.span.position else table

/-! ## One token at a time -/

/-- A source of tokens. -/
structure Lexer where
  /-- Where the next token begins. -/
  cursor : Cursor
  /-- The limits for literals. -/
  limits : Limits
  /-- The identifiers among the tokens given so far. -/
  symbols : SymbolTable := []
  /-- The diagnostics of the tokens given so far. -/
  diagnostics : List Diagnostic := []
  /-- Whether the end has been given. -/
  finished : Bool := false
deriving Repr, DecidableEq

namespace Lexer

/-- The tokens of `text` from its beginning. -/
def ofText (limits : Limits) (text : String) : Lexer := { cursor := .ofText text, limits }

/-- What is found at the cursor. -/
def scanned (l : Lexer) : Scanned :=
  scan l.limits (l.cursor.position.offset == 0) l.cursor.rest

/-- The next token; at the end it is `endOfInput` time and again. -/
def nextToken (l : Lexer) : Token × Lexer :=
  let found := l.scanned
  let cursor := l.cursor.move found.length
  let t : Token :=
    { kind := found.kind
      lexeme := String.ofList (l.cursor.rest.take found.length)
      span := .between l.cursor.position cursor.position }
  (t, { l with
    cursor
    symbols := l.symbols.recordToken t
    diagnostics := l.diagnostics ++ (found.fault.map (·.diagnostic t.span)).toList
    finished := l.finished || l.cursor.isAtEnd })

/-- The next token, if the end has not been given. -/
def next? (l : Lexer) : Option Token × Lexer :=
  if l.finished then (none, l)
  else
    let (t, l') := l.nextToken
    (some t, l')

/-- A number greater than that of the tokens to come. -/
def toCome (l : Lexer) : Nat := if l.finished then 0 else l.cursor.rest.length + 1

theorem toCome_nextToken {l : Lexer} (h : l.finished = false) :
    l.nextToken.2.toCome < l.toCome := by
  rw [toCome, toCome, h, if_neg Bool.false_ne_true]
  split
  · exact Nat.succ_pos _
  · rename_i hfinished
    have hrest : l.cursor.rest ≠ [] := by
      rintro hrest
      simp [nextToken, Cursor.isAtEnd, hrest] at hfinished
    obtain ⟨c, cs, hc⟩ := List.exists_cons_of_ne_nil hrest
    have hpos : 0 < l.scanned.length := by
      rw [scanned, hc]
      exact scan_pos _ _ c cs
    have hlength := l.cursor.length_rest_move l.scanned.length
    have hlength' : 0 < l.cursor.rest.length := List.length_pos_iff.2 hrest
    simp only [nextToken]
    omega

theorem toCome_of_next? {l l' : Lexer} {t : Token} (h : l.next? = (some t, l')) :
    l'.toCome < l.toCome := by
  unfold next? at h
  split at h
  · cases h
  · rename_i hfinished
    cases h
    exact toCome_nextToken (Bool.eq_false_iff.2 hfinished)

/-- All tokens to come, and the lexer behind them. -/
def collect (l : Lexer) : List Token × Lexer :=
  match _h : l.next? with
  | (none, l') => ([], l')
  | (some t, l') =>
    let (ts, l'') := l'.collect
    (t :: ts, l'')
termination_by l.toCome
decreasing_by exact toCome_of_next? _h

end Lexer

/-! ## All tokens -/

/-- A text cut into tokens. -/
structure Tokenized where
  /-- All tokens, in order. -/
  tokens : List Token
  /-- The identifiers. -/
  symbols : SymbolTable
  /-- What is wrong with the lexemes, in order. -/
  diagnostics : List Diagnostic
deriving Repr, DecidableEq

/-- A text cut into tokens. -/
def tokenize (limits : Limits) (text : String) : Tokenized :=
  let (ts, l) := (Lexer.ofText limits text).collect
  ⟨ts, l.symbols, l.diagnostics⟩

example : (tokenize {} "x+").tokens.map (·.kind) = [.identifier, .operator .plus, .endOfInput] := by
  decide +kernel

end Pdl
