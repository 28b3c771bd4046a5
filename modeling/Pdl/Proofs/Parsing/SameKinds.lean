import Mathlib.Data.List.GetD
import Pdl.Proofs.Parsing.FaultOrder
import Pdl.Proofs.Parsing.Truncation

/-!
# Streams of the same kinds

Two streams may differ in lexemes and places, in blanks, comments and invalid tokens,
and in all that stands behind their first ends.  As long as the grammar sees the same
kinds in them, the parser does the same (`run_of_programKinds_eq`).  Both runs keep step
with the one over the kinds, so that they meet the same faults at the same positions, and
the lexeme at a position is all that a message takes from the stream
(`SyntaxFault.message_congr`).

One of the streams may lack its end.  The end that stands in for it has the kind of a
real one, so at every position the two streams agree (`kind_programToken`).
-/

namespace Pdl

/-! ## Positions -/

theorem kind_programToken (ts : List Token) (i : Nat) :
    (programToken ts i).kind = (programKinds ts).getD i .endOfInput := by
  rw [programToken, programKinds, ← kind_endToken ts, List.getD_map]

theorem programToken_eq_endToken {ts : List Token} {i : Nat}
    (h : (programTokens ts).length ≤ i) : programToken ts i = endToken ts :=
  List.getD_eq_default _ _ h

/-- A step of the run over the stream `ts` reports `d`, with the parser at the position `i`. -/
def ReportedAt (ts : List Token) (i : Nat) (d : Diagnostic) : Prop :=
  ∃ c c' : Descent, Descent.Reaches { parser := Parser.ofTokens ts } c ∧ c.step = some c' ∧
    c.parser.position = i ∧ c.parser.current = programToken ts i ∧
    c'.parser.log = c.parser.log ++ [d]

/-- Every fault is reported where the parser meets it. -/
theorem reportedAt_of_mem_faults {ts : List Token} {fault : SyntaxFault} {i : Nat}
    (hfault : fault ∈ (parseKinds (programKinds ts)).faults)
    (hi : i + fault.left = (programKinds ts).length) :
    ReportedAt ts i (fault.diagnostic (programToken ts i)) := by
  rw [faults_parseKinds, List.mem_reverse] at hfault
  obtain hnone | ⟨t, e, ht, hstumbles, rfl⟩ :=
    (ParseState.reaches_run { rest := programKinds ts }).exists_stumbles hfault
  · cases hnone
  obtain ⟨c, hc, hfollows⟩ := (Follows.start (Parser.ofTokens ts)).reaches ht
  obtain ⟨c', hc', hfollows'⟩ := hfollows.exists_step (ParseState.step_of_stumbles hstumbles)
  have htoken := hfollows.stands.tokenOf_eq e
  rw [Parser.tokenOf_ofTokens [] hi] at htoken
  obtain ⟨hrest, done, hdone, hparser⟩ := hfollows.stands
  obtain ⟨-, done', -, hparser'⟩ := hfollows'.stands
  refine ⟨c, c', hc, hc', ?_, htoken.symm, ?_⟩
  · have hlength : (programTokens ts).length = done.length + c.parser.unread.length := by
      rw [← List.length_append, ← hdone]
      rfl
    have hleft : i + c.parser.unread.length = (programTokens ts).length := by
      rw [← Parser.length_kinds, ← hrest, hi, programKinds, List.length_map]
    rw [hparser]
    show 0 + done.length = i
    omega
  · rw [hparser', hparser]
    simp [Parser.resume, ParseState.fail, Parser.tokenOf_ofTokens [] hi]

/-! ## What a message takes from a token -/

namespace SyntaxFault

variable {t u : Token}

theorem code_congr (fault : SyntaxFault) (h : t.kind = u.kind) :
    (fault.diagnostic t).code = (fault.diagnostic u).code ∧
      (fault.diagnostic t).helps = (fault.diagnostic u).helps := by
  simp only [diagnostic, Expected.diagnostic, h, and_self]

theorem message_congr (fault : SyntaxFault) (h : t.kind = u.kind)
    (hlexeme : t.kind ≠ .endOfInput → t.lexeme = u.lexeme) :
    (fault.diagnostic t).message = (fault.diagnostic u).message := by
  by_cases hend : t.kind = .endOfInput
  · -- The message of an end speaks of no lexeme.
    simp only [diagnostic, Expected.diagnostic, if_pos hend, if_pos (h.symm.trans hend)]
  · have hdescribe : t.describe = u.describe := by
      rw [Token.describe, Token.describe, h, hlexeme hend]
    rw [h] at hend
    simp only [diagnostic, Expected.diagnostic, h, if_neg hend, hdescribe]

end SyntaxFault

/-! ## Two runs -/

/-- The diagnostics `d` and `e` report the same in two streams: a fault at one position, in the
program or at the ends of both. -/
structure SameReport (ts us : List Token) (d e : Diagnostic) : Prop where
  code_eq : d.code = e.code
  helps_eq : d.helps = e.helps
  exists_index : ∃ i ≤ (programKinds ts).length, ReportedAt ts i d ∧ ReportedAt us i e ∧
    ((programTokens ts)[i]?.map (·.lexeme) = (programTokens us)[i]?.map (·.lexeme) →
      d.message = e.message)

variable {ts us : List Token}

/-- Lexemes that are the same at an index are those of the tokens there, but for the end. -/
theorem lexeme_programToken {i : Nat}
    (h : (programTokens ts)[i]?.map (·.lexeme) = (programTokens us)[i]?.map (·.lexeme))
    (hend : (programToken ts i).kind ≠ .endOfInput) :
    (programToken ts i).lexeme = (programToken us i).lexeme := by
  have hlt : i < (programTokens ts).length := by
    by_contra hge
    rw [programToken_eq_endToken (Nat.le_of_not_lt hge)] at hend
    exact hend (kind_endToken ts)
  rw [programToken, programToken, List.getD_eq_getElem?_getD, List.getD_eq_getElem?_getD]
  rw [List.getElem?_eq_getElem hlt, Option.map_some, eq_comm, Option.map_eq_some_iff] at h
  obtain ⟨u, hu, hlexeme⟩ := h
  rw [List.getElem?_eq_getElem hlt, hu, Option.getD_some, Option.getD_some, hlexeme]

/-- Where the grammar sees the same kinds, a fault is reported in the same way. -/
theorem sameReport_of_mem_faults (h : programKinds ts = programKinds us) {fault : SyntaxFault}
    (hfault : fault ∈ (parseKinds (programKinds ts)).faults) :
    SameReport ts us (fault.diagnostic ((Parser.ofTokens ts).tokenOf fault))
      (fault.diagnostic ((Parser.ofTokens us).tokenOf fault)) := by
  obtain ⟨i, hi⟩ := Nat.exists_eq_add_of_le' (left_le_of_mem_faults hfault)
  have hi' : i + fault.left = (programKinds us).length := by rw [← h, hi]
  have hkind : (programToken ts i).kind = (programToken us i).kind := by
    rw [kind_programToken, kind_programToken, h]
  rw [Parser.tokenOf_ofTokens [] hi.symm, Parser.tokenOf_ofTokens [] hi']
  obtain ⟨hcode, hhelps⟩ := fault.code_congr hkind
  refine ⟨hcode, hhelps, i, by omega, reportedAt_of_mem_faults hfault hi.symm,
    reportedAt_of_mem_faults (h ▸ hfault) hi', fun hlexeme => ?_⟩
  exact fault.message_congr hkind (lexeme_programToken hlexeme)

namespace Parser

theorem errors_of_programKinds_eq (h : programKinds ts = programKinds us) :
    (ofTokens ts).run.2.2.errors = (ofTokens us).run.2.2.errors := by
  rw [run_eq, run_eq, errors_after, errors_after, h]

end Parser

/-- Over two streams in which the grammar sees the same kinds the parser does the same, comes to
the same position and reports the same.  Where the lexemes are the same too, so are the
messages. -/
theorem run_of_programKinds_eq (h : programKinds ts = programKinds us) :
    (Parser.ofTokens ts).run.1 = (Parser.ofTokens us).run.1 ∧
      (Parser.ofTokens ts).run.2.2.errors = (Parser.ofTokens us).run.2.2.errors ∧
      (Parser.ofTokens ts).run.2.2.position = (Parser.ofTokens us).run.2.2.position ∧
      List.Forall₂ (SameReport ts us) (Parser.ofTokens ts).run.2.1 (Parser.ofTokens us).run.2.1 ∧
      ((programTokens ts).map (·.lexeme) = (programTokens us).map (·.lexeme) →
        (Parser.ofTokens ts).run.2.1.map (·.message)
          = (Parser.ofTokens us).run.2.1.map (·.message)) := by
  have hposition : (Parser.ofTokens ts).run.2.2.position
      = (Parser.ofTokens us).run.2.2.position := by
    have hlength := congrArg List.length h
    rw [programKinds, programKinds, List.length_map, List.length_map] at hlength
    rw [Parser.run_eq, Parser.run_eq, Parser.after_eq, Parser.after_eq]
    exact congrArg (0 + ·) hlength
  have hreports : List.Forall₂ (SameReport ts us) (Parser.ofTokens ts).diagnostics
      (Parser.ofTokens us).diagnostics := by
    rw [Parser.diagnostics_ofTokens, Parser.diagnostics_ofTokens, ← h,
      List.forall₂_map_left_iff, List.forall₂_map_right_iff, List.forall₂_same]
    exact fun fault hfault => sameReport_of_mem_faults h hfault
  refine ⟨Parser.trace_of_programKinds_eq h, Parser.errors_of_programKinds_eq h, hposition,
    hreports, fun hlexemes => ?_⟩
  show (Parser.ofTokens ts).diagnostics.map _ = (Parser.ofTokens us).diagnostics.map _
  rw [← List.forall₂_eq_eq_eq, List.forall₂_map_left_iff, List.forall₂_map_right_iff]
  refine hreports.imp fun d e hsame => ?_
  obtain ⟨i, -, -, -, hmessage⟩ := hsame.exists_index
  exact hmessage (by rw [← List.getElem?_map, hlexemes, List.getElem?_map])

/-- The loop of `brokenLoop` with an opening parenthesis behind its end. -/
def continuedLoop : List Token :=
  brokenLoop ++ tokensOf [.punctuation .openParen, .keyword .put, .endOfInput]

/-- The loop of `brokenLoop` with other lexemes, a comment in it, a token that is none of the
language, and no end. -/
def litteredLoop : List Token :=
  [⟨.keyword .while, "while", ⟨0, 5, 1, 1⟩⟩, ⟨.comment, "/* */", ⟨5, 10, 1, 6⟩⟩,
    ⟨.punctuation .openParen, "(", ⟨10, 11, 1, 11⟩⟩, ⟨.identifier, "x", ⟨11, 12, 1, 12⟩⟩,
    ⟨.invalid, "@", ⟨12, 13, 1, 13⟩⟩, ⟨.punctuation .closeParen, ")", ⟨13, 14, 1, 14⟩⟩,
    ⟨.punctuation .openBrace, "\x7b", ⟨14, 15, 1, 15⟩⟩, ⟨.keyword .put, "put", ⟨15, 18, 1, 16⟩⟩,
    ⟨.whitespace, "\n", ⟨18, 19, 1, 19⟩⟩]

theorem run_litteredLoop :
    programKinds continuedLoop = programKinds litteredLoop ∧
      (Parser.ofTokens continuedLoop).run.1 = (Parser.ofTokens litteredLoop).run.1 ∧
      List.Forall₂ (SameReport continuedLoop litteredLoop) (Parser.ofTokens continuedLoop).run.2.1
        (Parser.ofTokens litteredLoop).run.2.1 ∧
      (Parser.ofTokens litteredLoop).run.2.2.errors = 2 := by
  have h : programKinds continuedLoop = programKinds litteredLoop := by decide
  obtain ⟨htrace, -, -, hreports, -⟩ := run_of_programKinds_eq h
  have hfaults : (parseKinds (programKinds litteredLoop)).faults
      = [⟨.expression, 0⟩, unclosedBlock] :=
    faults_parseKinds_of_runFor 60 _ (by decide) (by decide)
  refine ⟨h, htrace, hreports, ?_⟩
  rw [Parser.run_eq, Parser.errors_after, hfaults]
  rfl

end Pdl
