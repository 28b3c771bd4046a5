import Mathlib.Data.List.Pairwise
import Mathlib.Logic.Function.Basic
import Pdl.Analysis
import Pdl.Proofs.Lexing.Places
import Pdl.Proofs.Lexing.Spacing

/-!
# Reformatting

A text without invalid tokens may be written anew: its lexemes in their order,
with blanks between them and without its comments.  What an analysis finds stays
the same but for the places (`analyze_of_spaced`).

Both texts have the same content but for the places, so the tokens of the second
one are those of the first one with their spans changed (`exists_relocate`), and
with them the diagnostics of both phases.  In both texts the tokens start at later
and later places.  So the change of the spans keeps the order of the places, and
it does not matter whether the diagnostics are sorted before it or after it
(`sortByStart_relocate`).
-/

namespace Pdl

/-- The diagnostic without its place. -/
def Diagnostic.unplaced (d : Diagnostic) : Diagnostic := { d with span := .nowhere }

/-- Two analyses find the same but for the places. -/
structure Analysis.AgreesWith (a b : Analysis) : Prop where
  /-- The kinds and the lexemes of the tokens that are neither blanks nor comments. -/
  content : (contentTokens a.tokens).map Token.word = (contentTokens b.tokens).map Token.word
  /-- The completed rules, and whether the text is accepted. -/
  trace : a.trace = b.trace
  /-- The names in their order, and how often each of them stands. -/
  symbols : a.symbols.counts = b.symbols.counts
  /-- The diagnostics in their order. -/
  diagnostics : a.diagnostics.map Diagnostic.unplaced = b.diagnostics.map Diagnostic.unplaced

/-! ## A change of the spans -/

/-- Tokens with the same words differ by a change of their spans. -/
theorem exists_relocate {ts us : List Token} (hwords : us.map Token.word = ts.map Token.word)
    (hnodup : (ts.map (·.span)).Nodup) : ∃ f : Span → Span, us = ts.map (Token.relocate f) := by
  induction ts generalizing us with
  | nil => exact ⟨id, List.map_eq_nil_iff.1 hwords⟩
  | cons t ts ih =>
    obtain ⟨u, us, rfl⟩ := List.exists_cons_of_ne_nil (l := us) (by rintro rfl; cases hwords)
    obtain ⟨hword, hrest⟩ := List.cons_eq_cons.1 hwords
    obtain ⟨hspan, hspans⟩ := List.nodup_cons.1 hnodup
    obtain ⟨f, rfl⟩ := ih hrest hspans
    refine ⟨Function.update f t.span u.span, List.cons_eq_cons.2 ⟨?_, ?_⟩⟩
    · obtain ⟨hkind, hlexeme⟩ := Prod.mk.inj hword
      rw [Token.relocate, Function.update_self, ← hkind, ← String.toList_inj.1 hlexeme]
    · refine List.map_congr_left ?_
      intro v hv
      have hne : v.span ≠ t.span := by
        intro h
        exact hspan (List.mem_map.2 ⟨v, hv, h⟩)
      rw [Token.relocate, Token.relocate, Function.update_of_ne hne]

section

variable {f : Span → Span}

theorem unplaced_relocate (ds : List Diagnostic) :
    (ds.map (Diagnostic.relocate f)).map Diagnostic.unplaced = ds.map Diagnostic.unplaced := by
  rw [List.map_map]
  rfl

/-- Diagnostics may be sorted before a change of the spans that keeps their order. -/
theorem sortByStart_relocate {ds : List Diagnostic}
    (h : ∀ d ∈ ds, ∀ e ∈ ds, d.span.start ≤ e.span.start ↔ (f d.span).start ≤ (f e.span).start) :
    sortByStart (ds.map (Diagnostic.relocate f))
      = (sortByStart ds).map (Diagnostic.relocate f) := by
  refine (List.map_mergeSort ?_).symm
  intro d hd e he
  exact decide_eq_decide.2 (h d hd e he)

/-- A change of the spans keeps the order of tokens that start at later and later places before
it and after it. -/
theorem start_le_start_iff {ts : List Token}
    (hts : ts.Pairwise fun t u => t.span.start < u.span.start)
    (hus : (ts.map (Token.relocate f)).Pairwise fun t u => t.span.start < u.span.start)
    {t u : Token} (ht : t ∈ ts) (hu : u ∈ ts) :
    t.span.start ≤ u.span.start ↔ (f t.span).start ≤ (f u.span).start := by
  have hus' := List.pairwise_map.1 hus
  have hboth : ts.Pairwise fun t u =>
      t.span.start < u.span.start ∧ (f t.span).start < (f u.span).start := hts.and hus'
  have hsame : ∀ t ∈ ts, t.span.start ≤ t.span.start ↔ (f t.span).start ≤ (f t.span).start :=
    fun t _ => iff_of_true (Nat.le_refl _) (Nat.le_refl _)
  have hbefore : ts.Pairwise fun t u =>
      t.span.start ≤ u.span.start ↔ (f t.span).start ≤ (f u.span).start := by
    refine hboth.imp ?_
    rintro t u ⟨h, hf⟩
    exact iff_of_true (Nat.le_of_lt h) (Nat.le_of_lt hf)
  have hafter : ts.Pairwise (flip fun t u =>
      t.span.start ≤ u.span.start ↔ (f t.span).start ≤ (f u.span).start) := by
    refine hboth.imp ?_
    rintro t u ⟨h, hf⟩
    exact iff_of_false (Nat.not_le_of_lt h) (Nat.not_le_of_lt hf)
  exact hbefore.forall_of_forall_of_flip hsame hafter ht hu

end

/-! ## The places of diagnostics -/

/-- A fault lies at a token that the grammar sees, or at the end. -/
theorem Parser.tokenOf_mem (ts : List Token) (fault : SyntaxFault) :
    (ofTokens ts).tokenOf fault ∈ programTokens ts ++ [endToken ts] := by
  rw [tokenOf, unread_ofTokens, endAhead_ofTokens, List.getD_eq_getElem?_getD]
  cases h : (programTokens ts)[(programTokens ts).length - fault.left]? with
  | none => exact List.mem_append_right _ List.mem_cons_self
  | some t => exact List.mem_append_left _ (List.mem_of_getElem? h)

/-- Each diagnostic of the parser is that of a fault at such a token. -/
theorem Parser.exists_fault_of_mem_diagnostics {ts : List Token} {d : Diagnostic}
    (hd : d ∈ (ofTokens ts).diagnostics) :
    ∃ fault : SyntaxFault, ∃ t ∈ programTokens ts ++ [endToken ts], d = fault.diagnostic t := by
  rw [diagnostics_ofTokens] at hd
  obtain ⟨fault, -, rfl⟩ := List.mem_map.1 hd
  exact ⟨fault, _, tokenOf_mem ts fault, rfl⟩

/-- Each diagnostic has the place of a token of the content. -/
theorem exists_token_of_diagnostic {limits : Limits} {ts us : List Token} {e : Token}
    (hts : contentTokens ts = us ++ [e]) (hus : ∀ u ∈ us, u.kind ≠ .endOfInput)
    (he : e.kind = .endOfInput) {d : Diagnostic}
    (hd : d ∈ lexicalDiagnostics limits ts ++ (Parser.ofTokens ts).diagnostics) :
    ∃ t ∈ contentTokens ts, d.span = t.span := by
  rcases List.mem_append.1 hd with hd | hd
  · rw [← lexicalDiagnostics_contentTokens] at hd
    obtain ⟨t, ht, hd⟩ := List.mem_filterMap.1 hd
    exact ⟨t, ht, Token.span_of_lexicalDiagnostic? hd⟩
  · obtain ⟨fault, t, ht, rfl⟩ := Parser.exists_fault_of_mem_diagnostics hd
    refine ⟨t, ?_, rfl⟩
    obtain ⟨htokens, hend⟩ := programTokens_of_contentTokens hts hus he
    rw [htokens, hend] at ht
    rw [hts]
    rcases List.mem_append.1 ht with ht | ht
    · exact List.mem_append_left _ (List.mem_filter.1 ht).1
    · exact List.mem_append_right _ ht

/-! ## Analyses -/

/-- An analysis has what each phase finds in the tokens of the text. -/
theorem analyze_eq (limits : Limits) (text : String) :
    analyze limits text =
      { tokens := tokens text
        diagnostics := sortByStart (lexicalDiagnostics limits (tokens text)
          ++ (Parser.ofTokens (tokens text)).diagnostics)
        symbols := symbolsOf (tokens text)
        trace := (Parser.ofTokens (tokens text)).trace } := by
  have hlog := Parser.log_after (.ofTokens (tokens text) (lexicalDiagnostics limits (tokens text)))
  have htrace := Parser.trace_ofTokens_log (tokens text) (lexicalDiagnostics limits (tokens text))
  rw [Parser.diagnostics_ofTokens_log] at hlog
  rw [analyze, tokenize_eq, ← htrace]
  exact congrArg (Analysis.mk _ · _ _) (congrArg sortByStart hlog)

/-- What an analysis finds where the spans of the content are changed. -/
theorem analyze_relocate (limits : Limits) {text text' : String} {f : Span → Span}
    {us : List Token} {e : Token} (hts : contentTokens (tokens text) = us ++ [e])
    (hus : ∀ u ∈ us, u.kind ≠ .endOfInput) (he : e.kind = .endOfInput)
    (hf : contentTokens (tokens text') = (contentTokens (tokens text)).map (Token.relocate f)) :
    (analyze limits text').AgreesWith (analyze limits text) := by
  obtain ⟨htokens, hend⟩ := programTokens_of_contentTokens hts hus he
  have hprogram : programTokens (tokens text') = (programTokens (tokens text)).map (Token.relocate f)
      ∧ endToken (tokens text') = (endToken (tokens text)).relocate f := by
    have hts' : contentTokens (tokens text') = us.map (Token.relocate f) ++ [e.relocate f] := by
      rw [hf, hts, List.map_append, List.map_singleton]
    have hus' : ∀ u ∈ us.map (Token.relocate f), u.kind ≠ .endOfInput := by
      intro u hu
      obtain ⟨v, hv, rfl⟩ := List.mem_map.1 hu
      exact hus v hv
    have hprogram := programTokens_of_contentTokens hts' hus' he
    rw [List.filter_map] at hprogram
    rw [htokens, hend]
    exact hprogram
  obtain ⟨htokens', hend'⟩ := hprogram
  have hlexical : lexicalDiagnostics limits (tokens text')
      = (lexicalDiagnostics limits (tokens text)).map (Diagnostic.relocate f) := by
    rw [← lexicalDiagnostics_contentTokens, hf, lexicalDiagnostics_relocate,
      lexicalDiagnostics_contentTokens]
  rw [analyze_eq, analyze_eq]
  constructor
  · rw [hf, List.map_map]
    rfl
  · have hkinds : programKinds (tokens text') = programKinds (tokens text) := by
      rw [programKinds, programKinds, htokens', List.map_map]
      rfl
    exact Parser.trace_of_programKinds_eq hkinds
  · rw [← symbolsOf_contentTokens, hf, counts_symbolsOf_relocate, symbolsOf_contentTokens]
  · rw [hlexical, Parser.diagnostics_relocate f htokens' hend', ← List.map_append,
      sortByStart_relocate, unplaced_relocate]
    intro d hd d' hd'
    obtain ⟨t, ht, hspan⟩ := exists_token_of_diagnostic hts hus he hd
    obtain ⟨t', ht', hspan'⟩ := exists_token_of_diagnostic hts hus he hd'
    have hpairwise := (pairwise_start_tokensFrom (.ofText text)).filter (!·.isTrivia)
    have hpairwise' := (pairwise_start_tokensFrom (.ofText text')).filter (!·.isTrivia)
    rw [hspan, hspan']
    refine start_le_start_iff hpairwise ?_ ht ht'
    exact hf ▸ hpairwise'

/-- A text may be written anew with other blanks between its lexemes. -/
theorem analyze_of_spaced (limits : Limits) {text text' : String}
    (hvalid : ∀ t ∈ (tokenize limits text).tokens, t.kind ≠ .invalid)
    (hspaced : Spaced (lexemesOf (tokenize limits text).tokens) text'.toList) :
    (analyze limits text').AgreesWith (analyze limits text) := by
  rw [tokenize_eq] at hvalid hspaced
  obtain ⟨us, e, hts, he, hus⟩ := exists_contentTokens hvalid
  have hpairwise := (pairwise_start_tokensFrom (.ofText text)).filter (!·.isTrivia)
  have hnodup : ((contentTokens (tokens text)).map (·.span)).Nodup := by
    refine List.pairwise_map.2 (hpairwise.imp ?_)
    intro t u hlt heq
    exact Nat.ne_of_lt hlt (congrArg Span.start heq)
  obtain ⟨f, hf⟩ := exists_relocate (words_of_spaced hvalid hspaced) hnodup
  exact analyze_relocate limits hts (fun u hu => (hus u hu).1) (congrArg Prod.fst he) hf

/-- A warning, a fault and a comment, which gives way to blanks. -/
theorem agreesWith_miscased :
    (∀ t ∈ (tokenize {} "If=1.5//x").tokens, t.kind ≠ .invalid) ∧
      Spaced (lexemesOf (tokenize {} "If=1.5//x").tokens) "\nIf =\u3000 1.5\t".toList ∧
      (analyze {} "\nIf =\u3000 1.5\t").AgreesWith (analyze {} "If=1.5//x") := by
  have hvalid : ∀ t ∈ (tokenize {} "If=1.5//x").tokens, t.kind ≠ .invalid := by decide +kernel
  have hlexemes : lexemesOf (tokenize {} "If=1.5//x").tokens
      = ["If".toList, "=".toList, "1.5".toList] := by
    decide +kernel
  have hspaced : Spaced (lexemesOf (tokenize {} "If=1.5//x").tokens)
      "\nIf =\u3000 1.5\t".toList := by
    rw [hlexemes]
    change Spaced _ ("\n".toList ++ ("If".toList ++
      (" ".toList ++ ("=".toList ++ ("\u3000 ".toList ++ ("1.5".toList ++ "\t".toList))))))
    exact .cons (List.all_eq_true.1 (by decide)) (by decide) <|
      .cons (List.all_eq_true.1 (by decide)) (by decide) <|
      .cons (List.all_eq_true.1 (by decide)) (by decide) <| .nil (List.all_eq_true.1 (by decide))
  exact ⟨hvalid, hspaced, analyze_of_spaced {} hvalid hspaced⟩

end Pdl
