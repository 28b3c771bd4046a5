import Pdl.Proofs.Lexing.LongestMatch

/-!
# Tokens one at a time

A `Lexer` is asked for its tokens one by one, by `nextToken` or by `next?`.  The
two ways may be mixed.  The answers are the tokens of the text in their order, and
the ways differ behind the end only, where `nextToken` repeats the last token and
`next?` gives nothing (`pulls_ofText`).

`Lexer.HasGiven` is the invariant.  Before the end has been given, the cursor
stands in front of the tokens that are still to come.  Afterwards it stays at the
end of the text, and no pull changes anything.  The symbol table and the
diagnostics are always those of the tokens given so far.
-/

namespace Pdl

/-! ## Pulls -/

/-- A way to ask for the next token. -/
inductive Pull where
  /-- By `nextToken`. -/
  | token
  /-- By `next?`. -/
  | next
deriving Repr, DecidableEq

/-- What a pull gives after `n` others, if the text has the tokens `ts`. -/
def Pull.answer (ts : List Token) (n : Nat) : Pull → Option Token
  | token => ts[n]?.or ts.getLast?
  | next => ts[n]?

namespace Lexer

/-- One pull. -/
def pull (l : Lexer) : Pull → Option Token × Lexer
  | .token => (some l.nextToken.1, l.nextToken.2)
  | .next => l.next?

/-- One pull after the other, with all answers. -/
def pulls (l : Lexer) : List Pull → List (Option Token) × Lexer
  | [] => ([], l)
  | p :: ps => ((l.pull p).1 :: ((l.pull p).2.pulls ps).1, ((l.pull p).2.pulls ps).2)

end Lexer

/-! ## The tokens given so far -/

theorem symbolsOf_concat (ts : List Token) (t : Token) :
    symbolsOf (ts ++ [t]) = (symbolsOf ts).recordToken t := by
  rw [symbolsOf, List.foldl_append]
  rfl

theorem lexicalDiagnostics_concat (limits : Limits) (ts : List Token) (t : Token) :
    lexicalDiagnostics limits (ts ++ [t])
      = lexicalDiagnostics limits ts ++ (t.lexicalDiagnostic? limits).toList := by
  rw [lexicalDiagnostics, List.filterMap_append]
  cases h : t.lexicalDiagnostic? limits <;> simp [lexicalDiagnostics, h]

namespace Lexer

/-- The lexer has given the first `n` of the tokens `ts`, or all of them after `n` pulls. -/
inductive HasGiven (limits : Limits) (ts : List Token) : Nat → Lexer → Prop where
  /-- The end is still to come. -/
  | ahead {n : Nat} {c : Cursor} (htokens : tokensFrom c = ts.drop n) :
      HasGiven limits ts n
        ⟨c, limits, symbolsOf (ts.take n), lexicalDiagnostics limits (ts.take n), false⟩
  /-- The end has been given. -/
  | behind {n : Nat} {c : Cursor} (hlength : ts.length ≤ n) (hrest : c.rest = [])
      (hlast : ts.getLast? = some (tokenAt c).1) :
      HasGiven limits ts n ⟨c, limits, symbolsOf ts, lexicalDiagnostics limits ts, true⟩

variable {limits : Limits} {ts : List Token} {n : Nat} {l : Lexer}

theorem HasGiven.symbols_eq (h : l.HasGiven limits ts n) :
    l.symbols = symbolsOf (ts.take n) := by
  cases h with
  | ahead => rfl
  | behind hlength => rw [List.take_of_length_le hlength]

theorem HasGiven.diagnostics_eq (h : l.HasGiven limits ts n) :
    l.diagnostics = lexicalDiagnostics limits (ts.take n) := by
  cases h with
  | ahead => rfl
  | behind hlength => rw [List.take_of_length_le hlength]

/-- Behind the end `nextToken` changes nothing. -/
theorem nextToken_of_rest_nil (hrest : l.cursor.rest = []) (hfinished : l.finished = true) :
    l.nextToken = ((tokenAt l.cursor).1, l) := by
  obtain ⟨c, limits, symbols, diagnostics, finished⟩ := l
  simp only at hrest hfinished
  subst hfinished
  simp [nextToken_eq, tokenAt_of_rest_nil hrest, Cursor.move_zero, SymbolTable.recordToken,
    Token.lexicalDiagnostic?, LexicalFault.find?]

/-- The token at a cursor in front of the tokens from the `n`th on. -/
theorem split_of_tokensFrom {c : Cursor} (h : tokensFrom c = ts.drop n) :
    ts[n]? = some (tokenAt c).1 ∧ ts.take (n + 1) = ts.take n ++ [(tokenAt c).1] ∧
      ts.drop (n + 1) = if c.rest = [] then [] else tokensFrom (c.move (tokenAt c).2) := by
  rw [tokensFrom_eq] at h
  have hget : ts[n]? = some (tokenAt c).1 := by rw [← List.head?_drop, ← h, List.head?_cons]
  refine ⟨hget, ?_, ?_⟩
  · rw [List.take_add_one, hget, Option.toList_some]
  · rw [← List.tail_drop, ← h, List.tail_cons]

/-- One token more is given. -/
theorem HasGiven.nextToken (h : l.HasGiven limits ts n) :
    some l.nextToken.1 = ts[n]?.or ts.getLast? ∧ l.nextToken.2.HasGiven limits ts (n + 1) := by
  cases h with
  | @ahead c htokens =>
    obtain ⟨hget, htake, hdrop⟩ := split_of_tokensFrom htokens
    refine ⟨by rw [hget, nextToken_eq]; rfl, ?_⟩
    have hnext : (Lexer.mk c limits (symbolsOf (ts.take n))
          (lexicalDiagnostics limits (ts.take n)) false).nextToken.2
        = ⟨c.move (tokenAt c).2, limits, symbolsOf (ts.take (n + 1)),
            lexicalDiagnostics limits (ts.take (n + 1)), c.isAtEnd⟩ := by
      rw [htake, symbolsOf_concat, lexicalDiagnostics_concat, nextToken_eq]
      rfl
    rw [hnext]
    by_cases hrest : c.rest = []
    · -- The token given is the last one.
      rw [if_pos hrest, List.drop_eq_nil_iff] at hdrop
      rw [List.take_of_length_le hdrop] at htake
      rw [Cursor.isAtEnd, List.isEmpty_iff.2 hrest, List.take_of_length_le hdrop,
        tokenAt_of_rest_nil hrest, Cursor.move_zero]
      refine .behind hdrop hrest ?_
      rw [htake, List.getLast?_concat]
    · rw [if_neg hrest] at hdrop
      rw [Cursor.isAtEnd, List.isEmpty_eq_false_iff.2 hrest]
      exact .ahead hdrop.symm
  | behind hlength hrest hlast =>
    rw [nextToken_of_rest_nil hrest rfl, List.getElem?_eq_none hlength]
    exact ⟨hlast.symm, .behind (Nat.le_succ_of_le hlength) hrest hlast⟩

theorem HasGiven.pull (h : l.HasGiven limits ts n) (p : Pull) :
    (l.pull p).1 = p.answer ts n ∧ (l.pull p).2.HasGiven limits ts (n + 1) := by
  have hnext := h.nextToken
  cases p with
  | token => exact hnext
  | next =>
    cases h with
    | ahead htokens =>
      obtain ⟨hanswer, hgiven⟩ := hnext
      rw [(split_of_tokensFrom htokens).1] at hanswer
      exact ⟨hanswer.trans (split_of_tokensFrom htokens).1.symm, hgiven⟩
    | behind hlength hrest hlast =>
      exact ⟨(List.getElem?_eq_none hlength).symm,
        .behind (Nat.le_succ_of_le hlength) hrest hlast⟩

/-- The answers of a row of pulls, and what has been given after them. -/
theorem HasGiven.pulls (h : l.HasGiven limits ts n) (ps : List Pull) :
    (l.pulls ps).1 = ps.mapIdx (fun i p => p.answer ts (n + i)) ∧
      (l.pulls ps).2.HasGiven limits ts (n + ps.length) := by
  induction ps generalizing n l with
  | nil => exact ⟨rfl, h⟩
  | cons p ps ih =>
    obtain ⟨hanswer, hnext⟩ := h.pull p
    obtain ⟨hanswers, hlast⟩ := ih hnext
    rw [Lexer.pulls, hanswer, hanswers, List.mapIdx_cons, List.length_cons]
    refine ⟨?_, ?_⟩
    · simp only [Nat.add_zero, Nat.add_assoc, Nat.add_comm 1]
    · rwa [Nat.add_right_comm, Nat.add_assoc] at hlast

theorem hasGiven_ofText (limits : Limits) (text : String) :
    (ofText limits text).HasGiven limits (tokens text) 0 := .ahead rfl

example : (((ofText {} "x").pulls [.next, .token, .token, .next]).1.map fun t => t.map (·.kind))
    = [some .identifier, some .endOfInput, some .endOfInput, none] := by decide +kernel

end Lexer

end Pdl
