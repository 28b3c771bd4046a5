import Mathlib.Data.List.Basic
import Mathlib.Data.List.GetD
import Pdl.Proofs.Lexing.Tokens
import Pdl.Proofs.Parsing.Trace

/-!
# Content and places

The tokens of a text that are neither blanks nor comments are its *content*.
What is found in a text is found in its content (`lexicalDiagnostics_contentTokens`,
`symbolsOf_contentTokens`, `programTokens_of_contentTokens`).

The spans of the tokens go into what is found and decide nothing.  Where all of
them are changed by a function `f`, the diagnostics have their spans changed by
`f` and are otherwise the same, and so are the counted names
(`lexicalDiagnostics_relocate`, `Parser.diagnostics_relocate`,
`counts_symbolsOf_relocate`).
-/

namespace Pdl

/-! ## Content -/

/-- The tokens that are neither blanks nor comments. -/
def contentTokens (ts : List Token) : List Token := ts.filter (!·.isTrivia)

theorem mem_contentTokens {t : Token} {ts : List Token} :
    t ∈ contentTokens ts ↔ t ∈ ts ∧ t.isTrivia = false := by
  simp [contentTokens]

theorem contentTokens_cons_of_trivia {t : Token} (h : t.isTrivia = true) (ts : List Token) :
    contentTokens (t :: ts) = contentTokens ts := by
  simp [contentTokens, h]

theorem contentTokens_cons_of_content {t : Token} (h : t.isTrivia = false) (ts : List Token) :
    contentTokens (t :: ts) = t :: contentTokens ts := by
  simp [contentTokens, h]

theorem contentTokens_cons (t : Token) (ts : List Token) :
    contentTokens (t :: ts) = contentTokens [t] ++ contentTokens ts :=
  List.filter_append [t] ts

theorem contentTokens_concat {e : Token} (he : e.kind = .endOfInput) (ts : List Token) :
    contentTokens (ts ++ [e]) = contentTokens ts ++ [e] := by
  have hend : e.isTrivia = false := by
    rw [Token.isTrivia, he]
    rfl
  simp [contentTokens, hend]

theorem Token.kind_of_isTrivia {t : Token} (h : t.isTrivia = true) :
    t.kind = .comment ∨ t.kind = .whitespace := by
  rw [isTrivia] at h
  cases hk : t.kind <;> simp [hk, TokenKind.isTrivia] at h ⊢

/-- Nothing is reported about blanks and comments. -/
theorem lexicalDiagnostics_contentTokens (limits : Limits) (ts : List Token) :
    lexicalDiagnostics limits (contentTokens ts) = lexicalDiagnostics limits ts := by
  rw [lexicalDiagnostics, contentTokens, List.filterMap_filter]
  refine List.filterMap_congr ?_
  intro t _
  cases ht : t.isTrivia with
  | false => rfl
  | true =>
    rcases Token.kind_of_isTrivia ht with hk | hk <;>
      simp [Token.lexicalDiagnostic?, hk, LexicalFault.find?]

/-- Blanks and comments are no identifiers. -/
theorem symbolsOf_contentTokens (ts : List Token) : symbolsOf (contentTokens ts) = symbolsOf ts := by
  rw [symbolsOf, contentTokens, List.foldl_filter]
  refine List.foldl_ext _ _ _ ?_
  intro table t _
  cases ht : t.isTrivia with
  | false => rfl
  | true =>
    rcases Token.kind_of_isTrivia ht with hk | hk <;> simp [SymbolTable.recordToken, hk]

theorem significantTokens_of_contentTokens {ts us : List Token} {e : Token}
    (hts : contentTokens ts = us ++ [e]) (he : e.kind = .endOfInput) :
    significantTokens ts = us.filter (·.kind != .invalid) ++ [e] :=
  calc
    significantTokens ts = (contentTokens ts).filter (·.kind != .invalid) := by
      rw [contentTokens, List.filter_filter, significantTokens]
      exact List.filter_congr fun t _ => Bool.and_comm ..
    _ = us.filter (·.kind != .invalid) ++ [e] := by
      rw [hts, List.filter_append]
      simp [he]

/-- The parser reads the content up to its end. -/
theorem programTokens_of_contentTokens {ts us : List Token} {e : Token}
    (hts : contentTokens ts = us ++ [e]) (hus : ∀ u ∈ us, u.kind ≠ .endOfInput)
    (he : e.kind = .endOfInput) :
    programTokens ts = us.filter (·.kind != .invalid) ∧ endToken ts = e := by
  have hsignificant := significantTokens_of_contentTokens hts he
  have hus' : ∀ u ∈ us.filter (·.kind != .invalid), u.kind ≠ .endOfInput :=
    fun u hu => hus u (List.mem_filter.1 hu).1
  constructor
  · rw [programTokens, hsignificant, List.takeWhile_append_of_pos (by simpa using hus')]
    simp [he]
  · have hnone : (us.filter (·.kind != .invalid)).find? (·.kind == .endOfInput) = none := by
      rw [List.find?_eq_none]
      simpa using hus'
    rw [endToken, hsignificant, List.find?_append, hnone]
    simp [he]

/-! ## Places -/

/-- The token with its span changed by `f`. -/
def Token.relocate (f : Span → Span) (t : Token) : Token := { t with span := f t.span }

/-- The diagnostic with its span changed by `f`. -/
def Diagnostic.relocate (f : Span → Span) (d : Diagnostic) : Diagnostic :=
  { d with span := f d.span }

/-- The names of a table, and how often each of them stands. -/
def SymbolTable.counts (table : SymbolTable) : List (String × Nat) :=
  table.map fun e => (e.name, e.occurrences)

section

variable (f : Span → Span)

theorem contentTokens_relocate (ts : List Token) :
    contentTokens (ts.map (Token.relocate f)) = (contentTokens ts).map (Token.relocate f) :=
  List.filter_map

theorem LexicalFault.diagnostic_relocate (s : Span) (fault : LexicalFault) :
    fault.diagnostic (f s) = (fault.diagnostic s).relocate f := by
  cases fault <;> rfl

theorem lexicalDiagnostics_relocate (limits : Limits) (ts : List Token) :
    lexicalDiagnostics limits (ts.map (Token.relocate f))
      = (lexicalDiagnostics limits ts).map (Diagnostic.relocate f) := by
  rw [lexicalDiagnostics, List.filterMap_map, lexicalDiagnostics, List.map_filterMap]
  refine List.filterMap_congr ?_
  intro t _
  change (LexicalFault.find? limits t.kind t.lexeme).map _ = _
  rw [Token.lexicalDiagnostic?, Option.map_map]
  exact congrArg (Option.map · _) (funext (LexicalFault.diagnostic_relocate f t.span))

/-- Streams that differ in the spans of their tokens are reported with these spans. -/
theorem Parser.diagnostics_relocate {ts us : List Token}
    (htokens : programTokens us = (programTokens ts).map (Token.relocate f))
    (hend : endToken us = (endToken ts).relocate f) :
    (ofTokens us).diagnostics = (ofTokens ts).diagnostics.map (Diagnostic.relocate f) := by
  have hkinds : programKinds us = programKinds ts := by
    rw [programKinds, programKinds, htokens, List.map_map]
    rfl
  rw [diagnostics_ofTokens, diagnostics_ofTokens, hkinds, List.map_map]
  refine List.map_congr_left ?_
  intro fault _
  have htoken : (ofTokens us).tokenOf fault = ((ofTokens ts).tokenOf fault).relocate f := by
    rw [tokenOf, tokenOf, unread_ofTokens, unread_ofTokens, endAhead_ofTokens, endAhead_ofTokens,
      htokens, hend, List.length_map, List.getD_map]
  rw [htoken]
  rfl

/-- The place of an occurrence does not matter for the count. -/
theorem SymbolTable.counts_record {table table' : SymbolTable} (h : table.counts = table'.counts)
    (name : String) (p p' : Position) :
    counts (record name p table) = counts (record name p' table') := by
  induction table generalizing table' with
  | nil =>
    obtain rfl : table' = [] := List.map_eq_nil_iff.1 h.symm
    rfl
  | cons e table ih =>
    obtain ⟨e', table', rfl⟩ := List.exists_cons_of_ne_nil (l := table') (by rintro rfl; cases h)
    obtain ⟨he, htable⟩ := List.cons_eq_cons.1 h
    obtain ⟨hname, hoccurrences⟩ := Prod.mk.inj he
    rw [record, record, hname]
    split
    · exact List.cons_eq_cons.2 ⟨Prod.ext rfl (congrArg (· + 1) hoccurrences), htable⟩
    · exact List.cons_eq_cons.2 ⟨he, ih htable⟩

theorem counts_symbolsOf_relocate (ts : List Token) :
    (symbolsOf (ts.map (Token.relocate f))).counts = (symbolsOf ts).counts := by
  -- The tables that the tokens are added to are kept general.
  have hfold : ∀ table table' : SymbolTable, table.counts = table'.counts →
      (ts.foldl (fun table t => table.recordToken (t.relocate f)) table).counts
        = (ts.foldl SymbolTable.recordToken table').counts := by
    induction ts with
    | nil => exact fun table table' h => h
    | cons t ts ih =>
      intro table table' h
      refine ih _ _ ?_
      change (if t.kind = .identifier then table.record t.lexeme (f t.span).position
          else table).counts
        = (if t.kind = .identifier then table'.record t.lexeme t.span.position else table').counts
      split
      · exact SymbolTable.counts_record h _ _ _
      · exact h
  rw [symbolsOf, List.foldl_map, symbolsOf]
  exact hfold [] [] rfl

end

end Pdl
