import Pdl.Proofs.Parsing.Members
import Pdl.Proofs.Parsing.Trace

/-!
# Which programs are accepted

A text with the derivation tree of a program is handled to its end, and there
is nothing left to do there.  So the faults of the whole run and the rules of
its trace are those of the tree (`parseKinds_yields`).

A text without malformed statements has no faults.  Conversely the trace of a
run without faults is a derivation (`generates_of_faults_eq_nil`).  So the
parser accepts what the grammar generates and nothing else.
-/

namespace Pdl

/-! ## The run over a tree -/

theorem run_eq_of_reaches_end {s t : ParseState} (h : s.Reaches t) (hg : t.goals = [])
    (ho : t.outer = []) (hr : t.rest = []) : s.run = t := by
  have hstep : t.step = none := by
    rw [ParseState.step, hg]
    show t.stepBetween = none
    rw [ParseState.stepBetween, ho, hr]
  rw [h.run_eq, ParseState.run_eq_self hstep]

/-- The faults and the rules of a text are those of its tree. -/
theorem parseKinds_yields {ps : List Piece} {rs : List Rule}
    (h : Yields false [.nonterminal .program] ps rs) :
    Census (parseKinds (kindsOf ps)).rules rs ∧
      LieIn (parseKinds (kindsOf ps)).faults (faultRanges 0 ps) := by
  have hhandles : Handles { rest := kindsOf ps } [] ps rs :=
    handles_program h rfl rfl (List.append_nil _).symm
  obtain ⟨ms, qs, fs, hcensus, hf, hs⟩ := hhandles
  have hrun := run_eq_of_reaches_end hs rfl rfl rfl
  rw [rules_parseKinds, faults_parseKinds, hrun]
  simp only [List.append_nil]
  refine ⟨?_, hf⟩
  have hend : Census [.programEnd] [] := .of_not_structural (by decide)
  refine (hend.append hcensus).of_count ?_
  intro r
  simp only [List.count_append, List.count_reverse, List.count_cons, List.count_nil]
  omega

/-! ## Acceptance -/

theorem faults_eq_nil_of_generates {w : List TokenKind} (h : Generates .program w) :
    (parseKinds w).faults = [] := by
  obtain ⟨rs, hyields⟩ := exists_yields_of_derives h false
  obtain ⟨-, hf⟩ := parseKinds_yields hyields
  rw [kindsOf_map_kind, faultRanges_map_kind] at hf
  exact List.forall₂_nil_right_iff.1 hf

theorem generates_of_faults_eq_nil {w : List TokenKind} (h : (parseKinds w).faults = []) :
    Generates .program w := by
  rw [faults_parseKinds, List.reverse_eq_nil_iff] at h
  obtain ⟨hm, he⟩ := ParseState.expandAll?_rules_run h
  exact (derives_list hm).trans (derives_of_expandAll? _ he)

/-- A text has no faults if and only if it is a program. -/
theorem faults_eq_nil_iff {w : List TokenKind} :
    (parseKinds w).faults = [] ↔ Generates .program w := by
  constructor
  · exact generates_of_faults_eq_nil
  · exact faults_eq_nil_of_generates

/-- The parser accepts a stream of tokens if and only if the grammar generates the kinds of
its significant tokens up to the end. -/
theorem accepted_iff_generates (ts : List Token) :
    (Parser.ofTokens ts).run.1.accepted = true ↔ Generates .program (programKinds ts) := by
  rw [Parser.accepted_iff, faults_eq_nil_iff]

end Pdl
