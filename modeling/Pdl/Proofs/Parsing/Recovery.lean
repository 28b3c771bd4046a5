import Pdl.Proofs.Parsing.Recognition

/-!
# Recovery from malformed statements

Malformed statements may stand anywhere in a program, also in the bodies of
loops and functions.  Each of them is met by exactly one diagnostic, at one of
its own tokens, and everything else is still completed: the trace has a rule
for each statement, function and loop of the grammar.

Faults count the kinds that are left and places are indices from the beginning,
so the ranges of `faultRanges` are turned round first (`LieIn.malformedSpans`).
-/

namespace Pdl

/-! ## Places of malformed statements -/

/-- The indices of the first kind of each malformed statement and of the kind behind its
semicolon, if `start` kinds stand in front of the pieces. -/
def malformedSpans (start : Nat) : List Piece → List (Nat × Nat)
  | [] => []
  | .kind _ :: ps => malformedSpans (start + 1) ps
  | .malformed body :: ps =>
      (start, start + body.length + 1) :: malformedSpans (start + body.length + 1) ps

/-- The fault lies in the span, in a text of `length` kinds. -/
def SyntaxFault.LiesWithin (length : Nat) (fault : SyntaxFault) (span : Nat × Nat) : Prop :=
  ∃ i, span.1 ≤ i ∧ i < span.2 ∧ i + fault.left = length ∧ 0 < fault.left

/-- Faults in the ranges of the malformed statements lie at their places. -/
theorem LieIn.malformedSpans {faults : List SyntaxFault} {ps : List Piece} {after : Nat}
    (h : LieIn faults (faultRanges after ps)) (start : Nat) :
    List.Forall₂ (SyntaxFault.LiesWithin (start + (kindsOf ps).length + after)) faults
      (malformedSpans start ps) := by
  induction ps generalizing faults start with
  | nil =>
    rw [List.forall₂_nil_right_iff.1 h]
    exact .nil
  | cons p ps ih =>
    cases p with
    | kind k =>
      have htotal : start + (kindsOf (.kind k :: ps)).length + after
          = start + 1 + (kindsOf ps).length + after := by
        rw [kindsOf_kind, List.length_cons]
        omega
      rw [htotal]
      exact ih h (start + 1)
    | malformed body =>
      have htotal : start + (kindsOf (.malformed body :: ps)).length + after
          = start + body.length + 1 + (kindsOf ps).length + after := by
        rw [kindsOf_malformed, List.length_append, List.length_cons]
        omega
      rw [htotal]
      cases h with
      | @cons f _ fs _ hf hfs =>
        obtain ⟨hbehind, hfront⟩ := hf
        refine .cons ⟨start + body.length + 1 + (kindsOf ps).length + after - f.left, ?_⟩ (ih hfs _)
        simp only at hbehind hfront ⊢
        omega

/-! ## What is reported -/

/-- The diagnostic is reported at one of the tokens whose indices lie in the span. -/
def ReportedWithin (ts : List Token) (d : Diagnostic) (span : Nat × Nat) : Prop :=
  ∃ (fault : SyntaxFault) (i : Nat) (t : Token), span.1 ≤ i ∧ i < span.2 ∧
    (programTokens ts)[i]? = some t ∧ d = fault.diagnostic t

/-- Faults at places of the program are reported at the tokens there. -/
theorem reportedWithin_diagnostics {ts : List Token} {spans : List (Nat × Nat)}
    (h : List.Forall₂ (SyntaxFault.LiesWithin (programKinds ts).length)
      (parseKinds (programKinds ts)).faults spans) :
    List.Forall₂ (ReportedWithin ts) (Parser.ofTokens ts).diagnostics spans := by
  rw [Parser.diagnostics_ofTokens, List.forall₂_map_left_iff]
  refine h.imp ?_
  intro f span
  rintro ⟨i, hle, hlt, hi, hpos⟩
  have hi' : i < (programTokens ts).length := by
    rw [programKinds, List.length_map] at hi
    omega
  refine ⟨f, i, (programTokens ts)[i], hle, hlt, List.getElem?_eq_getElem hi', ?_⟩
  rw [Parser.tokenOf_ofTokens [] hi, programToken, List.getD_eq_getElem _ _ hi']

theorem census_trace {ts : List Token} {used : List Rule}
    (h : Census (parseKinds (programKinds ts)).rules used) :
    Census (Parser.ofTokens ts).run.1.rules used := by
  rw [Parser.rules_run]
  have hnone : Census (if (Parser.ofTokens ts).run.1.accepted then [Rule.accept] else []) [] := by
    refine .of_not_structural ?_
    intro r hr
    split at hr
    · rw [List.mem_singleton.1 hr]
      rfl
    · cases hr
  rw [← List.append_nil used]
  exact h.append hnone

/-- Each malformed statement of a program is reported once, at one of its own tokens, in the
order of the text, and the trace has a rule for each other statement, function and loop. -/
theorem reportedWithin_malformedSpans {ts : List Token} {ps : List Piece} {rs : List Rule}
    (h : Yields false [.nonterminal .program] ps rs) (hts : programKinds ts = kindsOf ps) :
    List.Forall₂ (ReportedWithin ts) (Parser.ofTokens ts).run.2.1 (malformedSpans 0 ps) ∧
      Census (Parser.ofTokens ts).run.1.rules rs := by
  obtain ⟨hcensus, hfaults⟩ := parseKinds_yields h
  rw [← hts] at hcensus hfaults
  refine ⟨reportedWithin_diagnostics ?_, census_trace hcensus⟩
  have hspans := hfaults.malformedSpans 0
  rw [← hts, Nat.zero_add, Nat.add_zero] at hspans
  exact hspans

/-! ## An example -/

/-- What has faults as a program is no statement. -/
theorem not_generates_statement {w : List TokenKind} (h : (parseKinds w).faults ≠ []) :
    ¬ Generates .statement w := by
  intro hw
  have hmember : ∀ r ∈ [Rule.programStatement], r ∈ memberRules false := by simp [memberRules]
  exact h (faults_eq_nil_of_generates ((derives_list hmember).trans hw))

/-- The word `put` and a semicolon, which is no statement. -/
theorem malformed_put : Malformed true [.keyword .put] where
  inner := by simp [separates]
  resumes := by simp
  head := by simp
  notStatement := not_generates_statement (by
    rw [faults_parseKinds_of_runFor 20 [⟨.expression, 1⟩] (by decide) (by decide)]
    simp)

/-- A loop with a malformed statement in its body, and a statement behind it. -/
def loopWithFault : List Piece :=
  [.kind (.keyword .while), .kind (.punctuation .openParen), .kind .identifier,
    .kind (.punctuation .closeParen), .kind (.punctuation .openBrace),
    .malformed [.keyword .put], .kind (.punctuation .closeBrace),
    .kind (.keyword .return), .kind (.punctuation .semicolon)]

/-- The rules of its tree. -/
def loopWithFaultRules : List Rule :=
  [.variable, .notOperand, .addOperand, .equalOperand, .bodyEnd, .bodyStatement, .whileDo,
    .returnNothing, .return, .simpleStatement, .programEnd, .programStatement, .programStatement]

theorem yields_loopWithFault :
    Yields false [.nonterminal .program] loopWithFault loopWithFaultRules := by
  have hcondition : Yields false [.nonterminal .expression] [.kind .identifier]
      [.variable, .notOperand, .addOperand, .equalOperand] :=
    .rule .equalOperand rfl (.rule .addOperand rfl (.rule .notOperand rfl
      (.rule .variable rfl (.terminal _ .nil) .nil) .nil) .nil) .nil
  have hbody : Yields false [.nonterminal .body] [.malformed [.keyword .put]]
      [.bodyEnd, .bodyStatement] :=
    .rule (b := false) .bodyStatement rfl
      (.malformed malformed_put (.rule .bodyEnd rfl .nil .nil)) .nil
  have hloop : Yields false Rule.whileDo.rhs (loopWithFault.take 7)
      [.variable, .notOperand, .addOperand, .equalOperand, .bodyEnd, .bodyStatement] :=
    .terminal _ (.terminal _ (hcondition.append
      (.terminal _ (.terminal _ (hbody.append (.terminal _ .nil))))))
  have hreturn : Yields false Rule.return.rhs (loopWithFault.drop 7) [.returnNothing] :=
    .terminal _ (.rule .returnNothing rfl .nil (.terminal _ .nil))
  have hsimple : Yields false [.nonterminal .simple] (loopWithFault.drop 7)
      [.returnNothing, .return] := .rule (b := false) .return rfl hreturn .nil
  have hrest : Yields false [.nonterminal .program] (loopWithFault.drop 7)
      [.returnNothing, .return, .simpleStatement, .programEnd, .programStatement] :=
    .rule (b := false) .programStatement rfl
      (.rule (b := false) .simpleStatement rfl hsimple (.rule .programEnd rfl .nil .nil)) .nil
  exact .rule (b := false) .programStatement rfl
    (.rule (b := false) .whileDo rfl hloop hrest) .nil

theorem reportedWithin_loopWithFault :
    programKinds (tokensOf (kindsOf loopWithFault)) = kindsOf loopWithFault ∧
      List.Forall₂ (ReportedWithin (tokensOf (kindsOf loopWithFault)))
        (Parser.ofTokens (tokensOf (kindsOf loopWithFault))).run.2.1 [(5, 7)] ∧
      Census (Parser.ofTokens (tokensOf (kindsOf loopWithFault))).run.1.rules
        loopWithFaultRules := by
  have hts : programKinds (tokensOf (kindsOf loopWithFault)) = kindsOf loopWithFault := by decide
  exact ⟨hts, reportedWithin_malformedSpans yields_loopWithFault hts⟩

end Pdl
