import Pdl.Proofs.Parsing.Trace

/-!
# The order of the faults

The parser never goes back.  A step leaves no more kinds than there were, and a
fault lies at the kind that comes next, so no fault lies in front of an earlier
one.  Several faults may lie at one kind: recovery need not skip the kind at
which it starts.

`ParseState.FaultsInOrder` is this account, for all states of a run over `n`
kinds, and `pairwise_faults_parseKinds` reads it at the end.
-/

namespace Pdl

namespace ParseState

/-- The faults met so far lie one behind the other, in front of what is left of `n` kinds. -/
structure FaultsInOrder (n : Nat) (s : ParseState) : Prop where
  /-- Of two faults the later one, which comes first, has no more kinds left. -/
  ordered : s.faults.Pairwise fun f g => f.left ≤ g.left
  passed : ∀ f ∈ s.faults, s.rest.length ≤ f.left
  rest_le : s.rest.length ≤ n
  left_le : ∀ f ∈ s.faults, f.left ≤ n

variable {s t : ParseState} {n : Nat}

theorem faultsInOrder_start (w : List TokenKind) : FaultsInOrder w.length { rest := w } where
  ordered := .nil
  passed := by simp
  rest_le := Nat.le_refl _
  left_le := by simp

/-- No kind is put back. -/
theorem length_rest_le_of_step (h : s.step = some t) : t.rest.length ≤ s.rest.length := by
  rcases step_decreases h with hlt | ⟨heq, -⟩
  · exact Nat.le_of_lt hlt
  · exact Nat.le_of_eq heq

theorem FaultsInOrder.step (hs : s.FaultsInOrder n) (h : s.step = some t) :
    t.FaultsInOrder n := by
  have hrest := length_rest_le_of_step h
  obtain hadvances | ⟨e, -, rfl⟩ := step_eq_some_iff.1 h
  · have hfaults := hadvances.faults_eq
    refine ⟨hfaults ▸ hs.ordered, ?_, Nat.le_trans hrest hs.rest_le, hfaults ▸ hs.left_le⟩
    intro f hf
    rw [hfaults] at hf
    exact Nat.le_trans hrest (hs.passed f hf)
  · refine ⟨.cons hs.passed hs.ordered, ?_, Nat.le_trans hrest hs.rest_le, ?_⟩
    · intro f hf
      rcases List.mem_cons.1 hf with rfl | hf
      · exact hrest
      · exact Nat.le_trans hrest (hs.passed f hf)
    · intro f hf
      rcases List.mem_cons.1 hf with rfl | hf
      · exact hs.rest_le
      · exact hs.left_le f hf

theorem FaultsInOrder.reaches (hs : s.FaultsInOrder n) (h : s.Reaches t) :
    t.FaultsInOrder n := by
  induction h with
  | refl => exact hs
  | tail _ h ih => exact ih.step h

theorem faultsInOrder_run (w : List TokenKind) :
    (run { rest := w }).FaultsInOrder w.length :=
  (faultsInOrder_start w).reaches (reaches_run _)

end ParseState

/-- Each fault lies at the kind of the one before it or behind that. -/
theorem pairwise_faults_parseKinds (w : List TokenKind) :
    (parseKinds w).faults.Pairwise fun f g => g.left ≤ f.left := by
  rw [faults_parseKinds, List.pairwise_reverse]
  exact (ParseState.faultsInOrder_run w).ordered

/-- A fault lies at one of the kinds or at their end. -/
theorem left_le_of_mem_faults {w : List TokenKind} {f : SyntaxFault}
    (h : f ∈ (parseKinds w).faults) : f.left ≤ w.length := by
  rw [faults_parseKinds, List.mem_reverse] at h
  exact (ParseState.faultsInOrder_run w).left_le f h

end Pdl
