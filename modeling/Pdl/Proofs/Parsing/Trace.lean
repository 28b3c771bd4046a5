import Pdl.Proofs.Parsing.Nesting
import Pdl.Proofs.Parsing.Simulation

/-!
# The trace of an accepted program

A run accepts if and only if it meets no fault (`accepted_iff`).  It then goes
on to its end without one, and the account of `Stands` is that of the whole
program.  Read backwards, the trace is the rightmost derivation of the program
and its end.
-/

namespace Pdl

/-! ## Reports -/

/-- The diagnostic reports an error at the token `t`. -/
structure Diagnostic.ReportsAt (d : Diagnostic) (t : Token) : Prop where
  level : d.level = .error
  span : d.span = t.span
  code : d.code = some .unexpectedToken ∨ d.code = some .expectedToken ∨
    d.code = some .unexpectedEnd
  unexpectedEnd_iff : d.code = some .unexpectedEnd ↔ t.kind = .endOfInput

theorem SyntaxFault.reportsAt_diagnostic (fault : SyntaxFault) (t : Token) :
    (fault.diagnostic t).ReportsAt t := by
  by_cases hend : t.kind = .endOfInput
  · have hcode : (fault.diagnostic t).code = some .unexpectedEnd := by
      simp [diagnostic, Expected.diagnostic, hend]
    exact ⟨rfl, rfl, .inr (.inr hcode), by simp [hcode, hend]⟩
  · have hcode : (fault.diagnostic t).code = some .unexpectedToken ∨
        (fault.diagnostic t).code = some .expectedToken := by
      simp only [diagnostic, Expected.diagnostic, if_neg hend]
      cases fault.expected <;> simp
    refine ⟨rfl, rfl, hcode.imp_right .inl, ?_⟩
    have hne : (fault.diagnostic t).code ≠ some .unexpectedEnd := by
      rcases hcode with hcode | hcode <;> rw [hcode] <;> decide
    exact iff_of_false hne hend

/-! ## Faults and acceptance -/

theorem faults_parseKinds (w : List TokenKind) :
    (parseKinds w).faults = (ParseState.run { rest := w }).faults.reverse := rfl

/-- The faults as a bounded run meets them. -/
theorem faults_parseKinds_of_runFor {w : List TokenKind} (n : Nat) (fs : List SyntaxFault)
    (h : (ParseState.runFor n { rest := w }).step = none)
    (hfs : (ParseState.runFor n { rest := w }).faults = fs.reverse) :
    (parseKinds w).faults = fs := by
  rw [faults_parseKinds, ParseState.run_eq_runFor h, hfs, List.reverse_reverse]

theorem rules_parseKinds (w : List TokenKind) :
    (parseKinds w).rules = (ParseState.run { rest := w }).rules.reverse ++
      .programEnd :: (ParseState.run { rest := w }).members := rfl

/-- The empty program has no members and no faults. -/
theorem parseKinds_nil : parseKinds [] = ⟨[.programEnd], []⟩ := by cbv

namespace Parser

theorem diagnostics_ofTokens (ts : List Token) :
    (ofTokens ts).diagnostics =
      (parseKinds (programKinds ts)).faults.map fun f => f.diagnostic ((ofTokens ts).tokenOf f) :=
  diagnostics_eq _

theorem diagnostics_run_eq_nil_iff (ts : List Token) :
    (ofTokens ts).run.2.1 = [] ↔ (parseKinds (programKinds ts)).faults = [] := by
  rw [run_eq, diagnostics_ofTokens, List.map_eq_nil_iff]

/-- A parser counts the faults of its first run. -/
theorem errors_after (ts : List Token) :
    (ofTokens ts).after.errors = (parseKinds (programKinds ts)).faults.length := by
  rw [after_eq]
  exact Nat.zero_add _

/-- A run accepts if and only if it meets no fault. -/
theorem accepted_iff (ts : List Token) :
    (ofTokens ts).run.1.accepted = true ↔ (parseKinds (programKinds ts)).faults = [] := by
  rw [run_eq, trace_eq, ← List.length_eq_zero_iff, ← errors_after]
  exact beq_iff_eq

theorem rules_run (ts : List Token) :
    (ofTokens ts).run.1.rules = (parseKinds (programKinds ts)).rules ++
      (if (ofTokens ts).run.1.accepted then [.accept] else []) := by
  rw [run_eq, trace_eq]
  rfl

theorem rules_of_accepted {ts : List Token} (h : (ofTokens ts).run.1.accepted = true) :
    (ofTokens ts).run.1.rules = (parseKinds (programKinds ts)).rules ++ [.accept] := by
  rw [rules_run, if_pos h]

/-- The trace is read off the kinds. -/
theorem trace_of_programKinds_eq {ts us : List Token} (h : programKinds ts = programKinds us) :
    (ofTokens ts).run.1 = (ofTokens us).run.1 := by
  have haccepted : (ofTokens ts).run.1.accepted = (ofTokens us).run.1.accepted := by
    rw [Bool.eq_iff_iff, accepted_iff, accepted_iff, h]
  have hrules : (ofTokens ts).run.1.rules = (ofTokens us).run.1.rules := by
    rw [rules_run, rules_run, haccepted, h]
  exact (Trace.mk.injEq ..).mpr ⟨hrules, haccepted⟩

/-- What was in the log before does not matter. -/
theorem diagnostics_ofTokens_log (ts : List Token) (log : List Diagnostic) :
    (ofTokens ts log).diagnostics = (ofTokens ts).diagnostics := by
  rw [diagnostics_eq, diagnostics_ofTokens]
  rfl

theorem trace_ofTokens_log (ts : List Token) (log : List Diagnostic) :
    (ofTokens ts log).trace = (ofTokens ts).trace := by
  rw [trace_eq, trace_eq, after_eq, after_eq]
  rfl

end Parser

/-! ## Runs without faults -/

namespace ParseState

theorem proceeds_run {s : ParseState} (h : s.run.faults = []) : s.Proceeds s.run := by
  obtain hp | ⟨t, e, hp, k⟩ := proceeds_run_or_stumbles s
  · exact hp
  · obtain ⟨fs, hfs⟩ := faults_run_of_stumbles hp k
    simp [hfs] at h

/-- The stack at the end of a program without faults is its list of members, and the recorded
rules lead from it to the program. -/
theorem expandAll?_rules_run {w : List TokenKind} (h : (run { rest := w }).faults = []) :
    (∀ r ∈ (run { rest := w }).members, r ∈ memberRules false) ∧
      expandAll? (run { rest := w }).rules (membersStack (run { rest := w }).members)
        = some (terminals w) := by
  obtain ⟨γ, x, hs, hw, he⟩ := (proceeds_run h).expandAll?_rules
  obtain ⟨hg, ho, hr⟩ := run_eq_end { rest := w }
  obtain ⟨γ₀, hf, hm, rfl⟩ := hs.between_inv hg
  rw [ho] at hf
  cases hf
  rw [hr, List.append_nil] at hw
  rw [inBlock, ho] at hm
  subst hw
  exact ⟨hm, he⟩

end ParseState

/-- The rules of the members of a list, the first one first, lead to all of them. -/
theorem expandAll?_members {inBlock : Bool} {ms : List Rule}
    (h : ∀ r ∈ ms, r ∈ memberRules inBlock) (y : List TokenKind) :
    expandAll? ms.reverse (.nonterminal (listNonterminal inBlock) :: terminals y)
      = some (membersStack ms ++ .nonterminal (listNonterminal inBlock) :: terminals y) := by
  induction ms with
  | nil => rfl
  | cons r ms ih =>
    obtain ⟨hrhs, hlhs⟩ := rhs_of_mem_memberRules (h r (.head _))
    have hms := ih fun q hq => h q (.tail _ hq)
    have hstep : expandLast? r
        (membersStack ms ++ .nonterminal (listNonterminal inBlock) :: terminals y)
        = some (membersStack (r :: ms) ++
            .nonterminal (listNonterminal inBlock) :: terminals y) := by
      refine expandLast?_eq_some_iff.2 ⟨membersStack ms, y, by rw [hlhs], ?_⟩
      rw [hrhs]
      simp
    rw [List.reverse_cons]
    exact expandAll?_append hms (expandAll?_cons hstep rfl)

/-! ## The trace -/

/-- The trace of an accepted program, read backwards, is the rightmost derivation of the
program and its end. -/
theorem expandAll?_reverse_rules {ts : List Token}
    (h : (Parser.ofTokens ts).run.1.accepted = true) :
    expandAll? (Parser.ofTokens ts).run.1.rules.reverse [.nonterminal .input]
      = some (terminals (programKinds ts) ++ [.terminal .endOfInput]) := by
  have hfaults : (ParseState.run { rest := programKinds ts }).faults = [] := by
    have := (Parser.accepted_iff ts).1 h
    rwa [faults_parseKinds, List.reverse_eq_nil_iff] at this
  obtain ⟨hm, he⟩ := ParseState.expandAll?_rules_run hfaults
  rw [Parser.rules_of_accepted h, rules_parseKinds]
  generalize ParseState.run { rest := programKinds ts } = t at hm he
  have hreverse : (t.rules.reverse ++ Rule.programEnd :: t.members ++ [Rule.accept]).reverse
      = .accept :: (t.members.reverse ++ (.programEnd :: t.rules)) := by simp
  have haccept : expandLast? .accept [.nonterminal .input]
      = some [.nonterminal .program, .terminal .endOfInput] := rfl
  have hmembers := expandAll?_members hm [.endOfInput]
  have hend : expandLast? .programEnd
      (membersStack t.members ++ [.nonterminal .program, .terminal .endOfInput])
      = some (membersStack t.members ++ [.terminal .endOfInput]) :=
    expandLast?_append_left (u := [.nonterminal .program, .terminal .endOfInput]) rfl _
  have hrules := expandAll?_append_terminals he [.endOfInput]
  rw [hreverse]
  exact expandAll?_cons haccept (expandAll?_append hmembers (expandAll?_cons hend hrules))

/-- Tokens of given kinds. -/
def tokensOf (w : List TokenKind) : List Token := w.map fun k => ⟨k, "", .nowhere⟩

/-- A loop with a call in it, and a comment. -/
def loopWithCall : List Token :=
  tokensOf [.keyword .while, .punctuation .openParen, .identifier, .comment,
    .punctuation .closeParen, .punctuation .openBrace, .identifier, .punctuation .openParen,
    .integer, .punctuation .comma, .operator .not, .string, .punctuation .closeParen,
    .punctuation .semicolon, .punctuation .closeBrace]

theorem expandAll?_loopWithCall :
    (Parser.ofTokens loopWithCall).run.1.accepted = true ∧
      expandAll? (Parser.ofTokens loopWithCall).run.1.rules.reverse [.nonterminal .input]
        = some (terminals (programKinds loopWithCall) ++ [.terminal .endOfInput]) := by
  have hfaults : (parseKinds (programKinds loopWithCall)).faults = [] :=
    faults_parseKinds_of_runFor 80 [] (by decide) (by decide)
  have h : (Parser.ofTokens loopWithCall).run.1.accepted = true :=
    (Parser.accepted_iff loopWithCall).2 hfaults
  exact ⟨h, expandAll?_reverse_rules h⟩

end Pdl
