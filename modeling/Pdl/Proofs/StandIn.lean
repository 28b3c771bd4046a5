import Pdl.Proofs.DiagnosticOrder
import Pdl.Proofs.Lexing.Tiling
import Pdl.Proofs.Parsing.Concatenation
import Pdl.Proofs.Parsing.Reruns
import Pdl.Proofs.Parsing.SameKinds

/-!
# The end that stands in for the end

A stream that lacks its end gets one that stands in for it (`standInEnd`).  The
parser does with the tokens of a text what it does with the text and its end
(`exists_standsIn_tokens`).  All it reports in front of the end is the same.

What it reports at the end has the byte offsets of the end, but another place: the
line and the column are those at which the last token begins, which is in front of
the end.  So the diagnostics are the same only if none of them is about the end.
-/

namespace Pdl

/-! ## Streams that lack their end -/

section

variable {ts : List Token} {e : Token}

theorem significantTokens_of_end (he : e.kind = .endOfInput) : significantTokens [e] = [e] := by
  simp [significantTokens, Token.isSignificant, he, TokenKind.isSignificant, TokenKind.isTrivia]

theorem programTokens_concat (hts : ∀ t ∈ ts, t.kind ≠ .endOfInput) (he : e.kind = .endOfInput) :
    programTokens (ts ++ [e]) = programTokens ts := by
  have hend : programTokens [e] = [] := by simp [programTokens, significantTokens_of_end he, he]
  rw [programTokens_append hts, hend, List.append_nil]

theorem endToken_concat (hts : ∀ t ∈ ts, t.kind ≠ .endOfInput) (he : e.kind = .endOfInput) :
    endToken (ts ++ [e]) = e := by
  rw [endToken_append hts (List.cons_ne_nil e [])]
  simp [endToken, significantTokens_of_end he, he]

theorem endToken_eq_standInEnd (hts : ∀ t ∈ ts, t.kind ≠ .endOfInput) :
    endToken ts = standInEnd ts := by
  rw [endToken, find?_endOfInput_eq_none hts, Option.getD_none]

end

/-! ## Reports about the end -/

/-- The diagnostic with the span `s`, if it is about the end of the input. -/
def Diagnostic.withEnd (s : Span) (d : Diagnostic) : Diagnostic :=
  if d.code = some .unexpectedEnd then { d with span := s } else d

theorem SyntaxFault.withEnd_diagnostic (fault : SyntaxFault) {t : Token} (s : Span)
    (h : t.kind ≠ .endOfInput) : (fault.diagnostic t).withEnd s = fault.diagnostic t := by
  rw [Diagnostic.withEnd, if_neg (mt (fault.reportsAt_diagnostic t).unexpectedEnd_iff.1 h)]

theorem SyntaxFault.withEnd_diagnostic_of_end (fault : SyntaxFault) {t u : Token}
    (ht : t.kind = .endOfInput) (hu : u.kind = .endOfInput) :
    (fault.diagnostic t).withEnd u.span = fault.diagnostic u := by
  rw [Diagnostic.withEnd, if_pos ((fault.reportsAt_diagnostic t).unexpectedEnd_iff.2 ht)]
  simp only [diagnostic, Expected.diagnostic, ht, hu, if_true]

/-- Without their end the tokens give the same diagnostics, but for the places of those that are
about the end. -/
theorem diagnostics_concat {ts : List Token} {e : Token} (hts : ∀ t ∈ ts, t.kind ≠ .endOfInput)
    (he : e.kind = .endOfInput) :
    (Parser.ofTokens ts).diagnostics
      = (Parser.ofTokens (ts ++ [e])).diagnostics.map (Diagnostic.withEnd (standInEnd ts).span) := by
  have htokens := programTokens_concat hts he
  have hkinds : programKinds (ts ++ [e]) = programKinds ts := congrArg (List.map _) htokens
  rw [Parser.diagnostics_ofTokens, Parser.diagnostics_ofTokens, hkinds, List.map_map]
  refine List.map_congr_left ?_
  intro fault hfault
  obtain ⟨i, hi⟩ := Nat.exists_eq_add_of_le' (left_le_of_mem_faults hfault)
  rw [Function.comp_apply, Parser.tokenOf_ofTokens [] hi.symm,
    Parser.tokenOf_ofTokens [] (hi.symm.trans (congrArg List.length hkinds.symm))]
  rcases Nat.lt_or_ge i (programTokens ts).length with hlt | hge
  · -- In front of the end the token is the same.
    have hsame : programToken (ts ++ [e]) i = programToken ts i := by
      rw [programToken, programToken, htokens, List.getD_eq_getElem _ _ hlt,
        List.getD_eq_getElem _ _ hlt]
    have hkind : (programToken ts i).kind ≠ .endOfInput := by
      rw [programToken, List.getD_eq_getElem _ _ hlt]
      exact Parser.kind_of_mem_unread (p := .ofTokens ts) (List.getElem_mem hlt)
    rw [hsame, fault.withEnd_diagnostic _ hkind]
  · rw [programToken_eq_endToken hge, programToken_eq_endToken (htokens ▸ hge),
      endToken_concat hts he, endToken_eq_standInEnd hts, fault.withEnd_diagnostic_of_end he rfl]

/-- What is about the end of the input has its span. -/
theorem span_of_unexpectedEnd {ts : List Token} {d : Diagnostic}
    (hd : d ∈ (Parser.ofTokens ts).diagnostics) (hcode : d.code = some .unexpectedEnd) :
    d.span = (endToken ts).span := by
  obtain ⟨fault, t, ht, rfl⟩ := Parser.exists_fault_of_mem_diagnostics hd
  have hkind := (fault.reportsAt_diagnostic t).unexpectedEnd_iff.1 hcode
  rcases List.mem_append.1 ht with ht | ht
  · exact absurd hkind (Parser.kind_of_mem_unread (p := .ofTokens ts) ht)
  · exact congrArg Token.span (List.mem_singleton.1 ht)

/-- Where something is reported there are tokens. -/
theorem programTokens_ne_nil {ts : List Token} {d : Diagnostic}
    (hd : d ∈ (Parser.ofTokens ts).diagnostics) : programTokens ts ≠ [] := by
  intro hnil
  rw [Parser.diagnostics_ofTokens, programKinds, hnil, List.map_nil, parseKinds_nil] at hd
  cases hd

theorem map_withEnd_eq_self_iff {ds : List Diagnostic} {s : Span}
    (h : ∀ d ∈ ds, d.code = some .unexpectedEnd → d.span ≠ s) :
    ds.map (Diagnostic.withEnd s) = ds ↔ ∀ d ∈ ds, d.code ≠ some .unexpectedEnd := by
  have hmap : ds.map (Diagnostic.withEnd s) = ds ↔ ∀ d ∈ ds, d.withEnd s = d := by
    simpa using List.map_inj_left (l := ds) (f := Diagnostic.withEnd s) (g := id)
  rw [hmap]
  refine forall₂_congr fun d hd => ?_
  constructor
  · intro hsame hcode
    rw [Diagnostic.withEnd, if_pos hcode] at hsame
    exact h d hd hcode (congrArg Diagnostic.span hsame).symm
  · intro hcode
    rw [Diagnostic.withEnd, if_neg hcode]

/-! ## The tokens of a text -/

/-- What a run over the tokens `ts` gives, compared to one over `ts` and their end `e`. -/
structure StandsIn (ts : List Token) (e : Token) : Prop where
  trace_eq : (Parser.ofTokens ts).run.1 = (Parser.ofTokens (ts ++ [e])).run.1
  errors_eq : (Parser.ofTokens ts).run.2.2.errors = (Parser.ofTokens (ts ++ [e])).run.2.2.errors
  diagnostics_eq : (Parser.ofTokens ts).run.2.1
    = (Parser.ofTokens (ts ++ [e])).run.2.1.map (Diagnostic.withEnd (standInEnd ts).span)
  offsets : (standInEnd ts).span.start = e.span.start ∧ (standInEnd ts).span.stop = e.span.stop
  /-- The place is that of the last token, in front of the end. -/
  place : ∀ t, ts.getLast? = some t → (standInEnd ts).span.line = t.span.line ∧
    (standInEnd ts).span.column = t.span.column ∧
    (standInEnd ts).span.position.Precedes e.span.position
  diagnostics_eq_iff : (Parser.ofTokens ts).run.2.1 = (Parser.ofTokens (ts ++ [e])).run.2.1 ↔
    ∀ d ∈ (Parser.ofTokens (ts ++ [e])).run.2.1, d.code ≠ some .unexpectedEnd

/-- The end that stands in for that of a text has its offsets, but a place in front of it. -/
theorem standInEnd_of_tokens {text : String} {ts : List Token} {e : Token}
    (htokens : tokens text = ts ++ [e]) :
    (standInEnd ts).span.start = e.span.start ∧ (standInEnd ts).span.stop = e.span.stop ∧
      ∀ t, ts.getLast? = some t → (standInEnd ts).span.line = t.span.line ∧
        (standInEnd ts).span.column = t.span.column ∧
        (standInEnd ts).span.position.Precedes e.span.position := by
  have hlast := getLast?_tokensFrom_eq (.ofText text)
  have hchain := isChain_tokensFrom (.ofText text)
  have hplaces := pairwise_precedes_tokensFrom (.ofText text)
  rw [← tokens, htokens] at hlast hchain hplaces
  rw [List.getLast?_concat, Option.some_inj] at hlast
  have hempty : e.span.start = e.span.stop := by
    rw [hlast]
    rfl
  cases hts : ts.getLast? with
  | none =>
    -- A text without tokens in front of its end is empty.
    obtain rfl := List.getLast?_eq_none_iff.1 hts
    have hhead := head?_tokensFrom (.ofText text)
    rw [← tokens, htokens, List.nil_append, List.head?_cons, Option.some_inj] at hhead
    have hstart : e.span.start = 0 := by
      rw [hhead]
      rfl
    exact ⟨hstart.symm, hempty ▸ hstart.symm, by simp⟩
  | some t =>
    have hspan : (standInEnd ts).span = ⟨t.span.stop, t.span.stop, t.span.line, t.span.column⟩ := by
      rw [standInEnd, hts]
    have hnext : t.span.stop = e.span.start :=
      (List.isChain_append.1 hchain).2.2 t hts e (List.head?_cons ..)
    have hprecedes : t.span.position.Precedes e.span.position :=
      (List.pairwise_append.1 hplaces).2.2 t (List.mem_of_getLast? hts) e (List.mem_singleton_self e)
    rw [hspan]
    refine ⟨hnext, hnext.trans hempty, ?_⟩
    rintro t' ⟨rfl⟩
    exact ⟨rfl, rfl, hprecedes⟩

/-- Without its end a text is read as with it.  What is reported at the end has the offsets of
the end and the place of the last token. -/
theorem exists_standsIn_tokens (limits : Limits) (text : String) :
    ∃ ts e, (tokenize limits text).tokens = ts ++ [e] ∧ e.kind = .endOfInput ∧ StandsIn ts e := by
  obtain ⟨ts, e, htokens, hts, he⟩ := exists_end_tokensFrom (.ofText text)
  have hkinds : programKinds ts = programKinds (ts ++ [e]) :=
    congrArg (List.map _) (programTokens_concat hts he).symm
  obtain ⟨hstart, hstop, hplace⟩ := standInEnd_of_tokens htokens
  rw [tokenize_eq]
  refine ⟨ts, e, htokens, he, Parser.trace_of_programKinds_eq hkinds,
    Parser.errors_of_programKinds_eq hkinds, diagnostics_concat hts he, ⟨hstart, hstop⟩, hplace,
    ?_⟩
  show (Parser.ofTokens ts).diagnostics = (Parser.ofTokens (ts ++ [e])).diagnostics ↔
    ∀ d ∈ (Parser.ofTokens (ts ++ [e])).diagnostics, d.code ≠ some .unexpectedEnd
  rw [diagnostics_concat hts he]
  refine map_withEnd_eq_self_iff ?_
  intro d hd hcode hspan
  rw [span_of_unexpectedEnd hd hcode, endToken_concat hts he] at hspan
  have hne : ts ≠ [] := by
    rintro rfl
    exact programTokens_ne_nil hd (programTokens_concat hts he)
  obtain ⟨-, -, hprecedes⟩ := hplace _ (List.getLast?_eq_some_getLast hne)
  rw [hspan] at hprecedes
  simp [Position.Precedes] at hprecedes

/-- A statement that breaks off is reported behind its last token, and at the beginning of that
token if the end is missing. -/
theorem diagnostics_put_without_end :
    (Parser.ofTokens (tokenize {} "put").tokens).run.2.1.map (·.span) = [⟨3, 3, 1, 4⟩] ∧
      (Parser.ofTokens (tokenize {} "put").tokens.dropLast).run.2.1.map (·.span)
        = [⟨3, 3, 1, 1⟩] ∧
      (Parser.ofTokens (tokenize {} "put").tokens.dropLast).run.2.1
        ≠ (Parser.ofTokens (tokenize {} "put").tokens).run.2.1 := by
  have htokens : (tokenize {} "put").tokens
      = [⟨.keyword .put, "put", ⟨0, 3, 1, 1⟩⟩, ⟨.endOfInput, "", ⟨3, 3, 1, 4⟩⟩] := by
    decide +kernel
  have hfaults : (parseKinds [.keyword .put]).faults = [⟨.expression, 0⟩] :=
    faults_parseKinds_of_runFor 20 _ (by decide) (by decide)
  have hfull : (Parser.ofTokens (tokenize {} "put").tokens).diagnostics
      = [SyntaxFault.diagnostic ⟨.expression, 0⟩ ⟨.endOfInput, "", ⟨3, 3, 1, 4⟩⟩] := by
    rw [htokens, Parser.diagnostics_ofTokens]
    exact congrArg (List.map _) hfaults
  have hcut : (Parser.ofTokens (tokenize {} "put").tokens.dropLast).diagnostics
      = [SyntaxFault.diagnostic ⟨.expression, 0⟩ ⟨.endOfInput, "", ⟨3, 3, 1, 1⟩⟩] := by
    rw [htokens, Parser.diagnostics_ofTokens]
    exact congrArg (List.map _) hfaults
  refine ⟨congrArg (List.map _) hfull, congrArg (List.map _) hcut, ?_⟩
  intro hsame
  have hspan := congrArg (List.map Diagnostic.span) (hcut.symm.trans (hsame.trans hfull))
  exact absurd hspan (by decide)

end Pdl
