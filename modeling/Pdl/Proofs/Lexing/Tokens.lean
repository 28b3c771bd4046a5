import Pdl.Lexing.Stream
import Pdl.Proofs.Lexing.Faults

/-!
# The tokens of a text

`tokens` is the list of the tokens of a text, each of them what `munch` reads behind
the one before.  `tokens_eq` unfolds it by one token.

A `Lexer` gives these tokens (`Lexer.nextToken_eq`).  So `tokenize` gives all of them,
with the table of their identifiers and what is reported about each of them
(`tokenize_eq`).
-/

namespace Pdl

/-! ## One token -/

/-- What is reported about a token. -/
def Token.lexicalDiagnostic? (limits : Limits) (t : Token) : Option Diagnostic :=
  (LexicalFault.find? limits t.kind t.lexeme).map (·.diagnostic t.span)

/-- A lexical diagnostic has the place of its token. -/
theorem Token.span_of_lexicalDiagnostic? {limits : Limits} {t : Token} {d : Diagnostic}
    (h : t.lexicalDiagnostic? limits = some d) : d.span = t.span := by
  obtain ⟨f, _, rfl⟩ := Option.map_eq_some_iff.1 h
  cases f <;> rfl

/-- The token at a cursor, and its number of characters. -/
def tokenAt (c : Cursor) : Token × Nat :=
  let (kind, n) := munch (c.position.offset == 0) c.rest
  (⟨kind, String.ofList (c.rest.take n), .between c.position (c.move n).position⟩, n)

theorem length_tokenAt_pos {c : Cursor} (h : c.rest ≠ []) : 0 < (tokenAt c).2 := by
  obtain ⟨ch, cs, hc⟩ := List.exists_cons_of_ne_nil h
  simp only [tokenAt, hc]
  exact munch_pos _ ch cs

theorem length_tokenAt_le (c : Cursor) : (tokenAt c).2 ≤ c.rest.length := munch_le _ _

theorem length_rest_move_tokenAt {c : Cursor} (h : c.rest ≠ []) :
    (c.move (tokenAt c).2).rest.length < c.rest.length := by
  have hrest : 0 < c.rest.length := List.length_pos_iff.2 h
  have hpos := length_tokenAt_pos h
  rw [Cursor.length_rest_move]
  omega

theorem lexeme_tokenAt (c : Cursor) :
    (tokenAt c).1.lexeme.toList = c.rest.take (tokenAt c).2 := by
  simp [tokenAt]

theorem stop_tokenAt (c : Cursor) :
    (tokenAt c).1.span.stop = (c.move (tokenAt c).2).position.offset := rfl

/-- The token at the end of the text takes nothing. -/
theorem tokenAt_of_rest_nil {c : Cursor} (h : c.rest = []) :
    tokenAt c = (⟨.endOfInput, "", .between c.position c.position⟩, 0) := by
  simp [tokenAt, h, munch, Cursor.move]

/-! ## All tokens -/

/-- The tokens from a cursor to the end. -/
def tokensFrom (c : Cursor) : List Token :=
  if _h : c.rest = [] then [(tokenAt c).1]
  else (tokenAt c).1 :: tokensFrom (c.move (tokenAt c).2)
termination_by c.rest.length
decreasing_by exact length_rest_move_tokenAt ‹_›

/-- The tokens of a text. -/
def tokens (text : String) : List Token := tokensFrom (.ofText text)

theorem tokensFrom_eq (c : Cursor) :
    tokensFrom c = (tokenAt c).1 ::
      if c.rest = [] then [] else tokensFrom (c.move (tokenAt c).2) := by
  rw [tokensFrom]
  split <;> simp_all

theorem tokensFrom_of_rest_ne_nil {c : Cursor} (h : c.rest ≠ []) :
    tokensFrom c = (tokenAt c).1 :: tokensFrom (c.move (tokenAt c).2) := by
  rw [tokensFrom_eq, if_neg h]

/-- The identifiers of a list of tokens. -/
def symbolsOf (ts : List Token) : SymbolTable := ts.foldl SymbolTable.recordToken []

/-- The lexical diagnostics of a list of tokens. -/
def lexicalDiagnostics (limits : Limits) (ts : List Token) : List Diagnostic :=
  ts.filterMap (Token.lexicalDiagnostic? limits)

theorem lexicalDiagnostics_cons (limits : Limits) (t : Token) (ts : List Token) :
    lexicalDiagnostics limits (t :: ts)
      = (t.lexicalDiagnostic? limits).toList ++ lexicalDiagnostics limits ts := by
  rw [lexicalDiagnostics, List.filterMap_cons]
  cases t.lexicalDiagnostic? limits <;> rfl

/-! ## The lexer -/

namespace Lexer

/-- What the lexer gives is the token at its cursor. -/
theorem nextToken_eq (l : Lexer) :
    l.nextToken = ((tokenAt l.cursor).1, { l with
      cursor := l.cursor.move (tokenAt l.cursor).2
      symbols := l.symbols.recordToken (tokenAt l.cursor).1
      diagnostics := l.diagnostics ++ ((tokenAt l.cursor).1.lexicalDiagnostic? l.limits).toList
      finished := l.finished || l.cursor.isAtEnd }) := by
  rw [nextToken, scanned, scan_eq]
  rfl

theorem collect_of_finished {l : Lexer} (h : l.finished = true) : l.collect = ([], l) := by
  have hnext : l.next? = (none, l) := if_pos h
  rw [collect]
  split <;> simp_all

theorem collect_of_not_finished {l : Lexer} (h : l.finished = false) :
    l.collect = (l.nextToken.1 :: l.nextToken.2.collect.1, l.nextToken.2.collect.2) := by
  have hnext : l.next? = (some l.nextToken.1, l.nextToken.2) := if_neg (by simp [h])
  rw [collect]
  split <;> simp_all

/-- What the lexer gives, one after the other, are the tokens from its cursor on. -/
theorem collect_eq {l : Lexer} (h : l.finished = false) :
    l.collect.1 = tokensFrom l.cursor ∧
      l.collect.2.symbols = (tokensFrom l.cursor).foldl SymbolTable.recordToken l.symbols ∧
      l.collect.2.diagnostics
        = l.diagnostics ++ lexicalDiagnostics l.limits (tokensFrom l.cursor) := by
  generalize hc : l.cursor = c
  fun_induction tokensFrom c generalizing l with
  | case1 c hrest =>
    have hfinished : l.nextToken.2.finished = true := by
      simp [nextToken, Cursor.isAtEnd, hc, hrest]
    rw [collect_of_not_finished h, collect_of_finished hfinished, nextToken_eq, hc,
      lexicalDiagnostics_cons]
    exact ⟨rfl, rfl, by simp [lexicalDiagnostics]⟩
  | case2 c hrest ih =>
    have hfinished : l.nextToken.2.finished = false := by
      simp [nextToken, Cursor.isAtEnd, hc, hrest, h]
    obtain ⟨htokens, hsymbols, hdiagnostics⟩ := ih hfinished (by rw [nextToken_eq, hc])
    rw [collect_of_not_finished h, htokens, hsymbols, hdiagnostics, nextToken_eq, hc,
      lexicalDiagnostics_cons]
    exact ⟨rfl, rfl, List.append_assoc ..⟩

end Lexer

/-- A text is cut into its tokens. -/
theorem tokenize_eq (limits : Limits) (text : String) :
    tokenize limits text
      = ⟨tokens text, symbolsOf (tokens text), lexicalDiagnostics limits (tokens text)⟩ := by
  obtain ⟨htokens, hsymbols, hdiagnostics⟩ := Lexer.collect_eq (l := .ofText limits text) rfl
  calc
    tokenize limits text
      = ⟨(Lexer.ofText limits text).collect.1, (Lexer.ofText limits text).collect.2.symbols,
          (Lexer.ofText limits text).collect.2.diagnostics⟩ := rfl
    _ = ⟨tokens text, symbolsOf (tokens text), lexicalDiagnostics limits (tokens text)⟩ := by
      rw [htokens, hsymbols, hdiagnostics]
      rfl

end Pdl
