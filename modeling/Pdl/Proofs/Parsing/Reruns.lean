import Pdl.Proofs.Parsing.Balance
import Pdl.Proofs.Parsing.FirstFault

/-!
# One run after the other

A parser may be run again, and what it reports goes behind what its log has already
(`Parser.runs`).  Only the first run finds something to read.  It reports each fault
once, as an error at the token where the fault lies, and counts it
(`Parser.FirstRun`).  It leaves the parser in front of the end, so that every later run
finds an empty program.  Such a run reports nothing and goes by the faults that have
been counted (`runs_ofTokens`).

The acceptance of a program is the last rule of its trace, if it is there at all.
No goal is for that rule, so it comes to nothing in the balance that counts
nothing else (`accept_not_mem_rules_parseKinds`).
-/

namespace Pdl

/-! ## The acceptance -/

/-- The acceptances.  No goal records one. -/
def Balance.acceptances : Balance where
  credits := [.accept]
  debits := []

theorem Balance.sound_acceptances : acceptances.Sound where
  readings {g} := by
    cases g with
    | token | moreParameters | moreArguments =>
      simp [Goal.readings, atLeast, ofGoal, acceptances]
    | reduce | tally => simp [Goal.readings]
    | _ => decide
  expansions {g} := by
    cases g with
    | moreParameters n | moreArguments n =>
      rw [Goal.expansions, List.forall_mem_singleton]
      exact ofGoals_list (by decide) n
    | reduce | tally | token => simp [Goal.expansions]
    | _ => decide
  members := by decide

theorem accept_not_mem_rules_parseKinds (w : List TokenKind) :
    .accept ∉ (parseKinds w).rules := by
  have hle := (ofRules_parseKinds Balance.sound_acceptances w).1
  rw [show Balance.acceptances.ofRules [.programEnd] = 0 by decide,
    Balance.ofRules_nonpos_iff] at hle
  simpa [Balance.acceptances, List.count_eq_zero] using hle

/-! ## The first run -/

namespace Parser

/-- What the first run over the tokens `ts` gives, behind what has been reported before: a
trace, diagnostics and the parser afterwards. -/
structure FirstRun (ts : List Token) (log : List Diagnostic) (t : Trace) (ds : List Diagnostic)
    (p : Parser) : Prop where
  /-- What has been reported before stays in front. -/
  log_eq : p.log = log ++ ds
  /-- Every diagnostic is counted. -/
  errors_eq : p.errors = ds.length
  /-- Every fault is reported once, at its token. -/
  reports : List.Forall₂ Diagnostic.ReportsAt ds
    ((parseKinds (programKinds ts)).faults.map (ofTokens ts).tokenOf)
  accepted_iff : t.accepted = true ↔ p.errors = 0
  accept_mem_iff : .accept ∈ t.rules ↔ t.accepted = true
  /-- Behind the acceptance there are no rules. -/
  accept_last : ∀ body tail, t.rules = body ++ .accept :: tail → tail = []

theorem firstRun_ofTokens (ts : List Token) (log : List Diagnostic) :
    FirstRun ts log (ofTokens ts log).run.1 (ofTokens ts log).run.2.1
      (ofTokens ts log).run.2.2 := by
  have hbody := accept_not_mem_rules_parseKinds (programKinds ts)
  have hdiagnostics : (ofTokens ts log).diagnostics = (parseKinds (programKinds ts)).faults.map
      fun f => f.diagnostic ((ofTokens ts).tokenOf f) := diagnostics_eq _
  have hrules : (ofTokens ts log).trace.rules = (parseKinds (programKinds ts)).rules
      ++ (if (ofTokens ts log).trace.accepted then [.accept] else []) := by
    rw [trace_eq]
    rfl
  refine ⟨log_after _, ?errors, ?reports, ?accepted, ?accept, ?last⟩
  case errors =>
    rw [run_eq, hdiagnostics, List.length_map, after_eq]
    exact Nat.zero_add _
  case reports =>
    rw [run_eq, hdiagnostics, List.forall₂_map_left_iff, List.forall₂_map_right_iff,
      List.forall₂_same]
    exact fun fault _ => fault.reportsAt_diagnostic _
  case accepted =>
    rw [run_eq, trace_eq]
    exact beq_iff_eq
  case accept =>
    rw [run_eq, hrules, List.mem_append, or_iff_right hbody]
    split <;> simp_all
  case last =>
    intro body tail hsplit
    rw [run_eq, hrules] at hsplit
    split at hsplit
    · obtain rfl | ⟨tail', r, rfl⟩ := List.eq_nil_or_concat tail
      · rfl
      · rw [List.concat_eq_append, ← List.cons_append, ← List.append_assoc] at hsplit
        obtain ⟨hsplit, -⟩ := List.append_inj' hsplit rfl
        exact absurd (by simp [hsplit]) hbody
    · rw [List.append_nil] at hsplit
      exact absurd (by simp [hsplit]) hbody

end Parser

/-! ## Later runs -/

/-- The trace of an empty program behind `errors` faults. -/
def Trace.ofNothing (errors : Nat) : Trace :=
  if errors = 0 then ⟨[.programEnd, .accept], true⟩ else ⟨[.programEnd], false⟩

namespace Parser

/-- The traces of one run after the other, and the parser behind them. -/
def runs (p : Parser) : Nat → List Trace × Parser
  | 0 => ([], p)
  | n + 1 =>
      let (t, q) := p.parse
      let (ts, r) := q.runs n
      (t :: ts, r)

theorem runs_succ (p : Parser) (n : Nat) :
    p.runs (n + 1) = (p.trace :: (p.after.runs n).1, (p.after.runs n).2) := rfl

variable {p : Parser}

/-- A run that finds nothing to read changes nothing. -/
theorem parse_of_unread_nil (h : p.unread = []) (hrules : p.rules = []) :
    p.trace = .ofNothing p.errors ∧ p.after = p := by
  have hafter : p.after = p := by
    rw [after_eq, kinds_of_unread_eq h, h, List.map_nil, parseKinds_nil, List.map_nil,
      List.append_nil]
    obtain ⟨tokens, ending, ending_kind, position, log, errors, rules⟩ := p
    cases hrules
    rfl
  refine ⟨?_, hafter⟩
  rw [trace_eq, hafter, hrules, kinds_of_unread_eq h, List.map_nil, parseKinds_nil, Trace.ofNothing]
  split <;> simp_all

theorem runs_of_unread_nil (h : p.unread = []) (hrules : p.rules = []) (n : Nat) :
    p.runs n = (List.replicate n (.ofNothing p.errors), p) := by
  obtain ⟨htrace, hafter⟩ := parse_of_unread_nil h hrules
  induction n with
  | zero => rfl
  | succ n ih =>
    rw [runs_succ, htrace, hafter, ih]
    rfl

/-- Of all runs of a parser only the first one reports.  The later ones go by the number of
its diagnostics and leave the parser as it is. -/
theorem runs_ofTokens (ts : List Token) (log : List Diagnostic) :
    FirstRun ts log (ofTokens ts log).run.1 (ofTokens ts log).run.2.1
        (ofTokens ts log).run.2.2 ∧
      ∀ n, (ofTokens ts log).runs (n + 1)
        = ((ofTokens ts log).run.1 ::
            List.replicate n (.ofNothing (ofTokens ts log).run.2.2.errors),
          (ofTokens ts log).run.2.2) := by
  refine ⟨firstRun_ofTokens ts log, fun n => ?_⟩
  rw [runs_succ, runs_of_unread_nil (unread_after _) rfl]
  rfl

/-- Behind a statement that lacks its value no run accepts. -/
example : ((ofTokens missingValue).runs 3).1.map Trace.numbers = [[4], [4], [4]] := by cbv

end Parser

end Pdl
