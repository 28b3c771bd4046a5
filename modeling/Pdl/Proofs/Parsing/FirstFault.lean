import Pdl.Proofs.Parsing.Recognition

/-!
# The place of the first fault

The first fault lies at the first token that no program has in its place.
What has been read in front of it can be continued to a program, since the
stack can (`exists_generates_of_proceeds`).

The token itself cannot.  Up to the fault the run depends on the kinds up to
and including the faulty one only: a plan looks one kind ahead, and it looks at
a second one only where it then reads the first (`plan_append`).  So every text
with the same beginning makes the parser stumble at the same place
(`not_generates_of_stumbles`).
-/

namespace Pdl

variable {g : Goal} {x y v : List TokenKind} {k : TokenKind}

/-! ## What a plan looks at -/

/-- A plan looks at two kinds at most. -/
theorem plan_two (g : Goal) (k j : TokenKind) (v v' : List TokenKind) :
    g.plan (k :: j :: v) = g.plan (k :: j :: v') := by
  cases g with
  | primary =>
    cases k with
    | identifier =>
      cases j with
      | punctuation p => cases p <;> rfl
      | _ => rfl
    | punctuation p => cases p <;> rfl
    | _ => rfl
  | _ => rfl

/-- It looks at one only if it does not read it. -/
theorem plan_one {v : List TokenKind} (v' : List TokenKind)
    (h : ∀ goals, g.plan (k :: v) ≠ .shift goals) : g.plan (k :: v) = g.plan (k :: v') := by
  cases g with
  | primary =>
    cases k with
    | identifier =>
      exfalso
      cases v with
      | nil => exact h _ rfl
      | cons j v =>
        cases j with
        | punctuation p => cases p <;> exact h _ rfl
        | _ => exact h _ rfl
    | punctuation p => cases p <;> rfl
    | _ => rfl
  | _ => rfl

/-- What stands behind a kind that is not read makes no difference. -/
theorem plan_append (y : List TokenKind) (k : TokenKind) {v : List TokenKind}
    (v' : List TokenKind) (h : ∀ goals, g.plan (y ++ k :: v) ≠ .shift goals) :
    g.plan (y ++ k :: v) = g.plan (y ++ k :: v') := by
  cases y with
  | nil => exact plan_one v' h
  | cons i y =>
    cases y with
    | nil => exact plan_two g i k v v'
    | cons j y => exact plan_two g i j _ _

/-- What stands behind the kind after one that is read makes no difference. -/
theorem plan_cons_append (g : Goal) (i : TokenKind) (y : List TokenKind) (k : TokenKind)
    (v v' : List TokenKind) : g.plan (i :: (y ++ k :: v)) = g.plan (i :: (y ++ k :: v')) := by
  cases y with
  | nil => exact plan_two g i k v v'
  | cons j y => exact plan_two g i j _ _

namespace ParseState

variable {s t : ParseState} {e : Expected}

/-! ## Runs in front of a kind -/

/-- A step is also a step of texts that end otherwise behind the next kind. -/
theorem Advances.append (h : s.Advances t) (ht : t.rest = y ++ k :: v) (v' : List TokenKind) :
    ∃ x, s.rest = x ++ k :: v ∧
      Advances { s with rest := x ++ k :: v' } { t with rest := y ++ k :: v' } := by
  cases h with
  | @begin i ks goals hg hr hb hm =>
    -- The kind `i` is read, so it stands in front of `k`.
    rw [show ks = y ++ k :: v from ht] at hr
    exact ⟨i :: y, hr, .begin hg rfl hb hm⟩
  | @leave f outer hg ho hr =>
    refine ⟨y, ht, .leave (s := { s with rest := y ++ k :: v' }) hg ho ?_⟩
    intro i hi
    refine hr i ?_
    rw [show s.rest = y ++ k :: v from ht]
    cases y with
    | nil => exact hi
    | cons j y => exact hi
  | @shift g gs goals i ks hg hr hp =>
    rw [show ks = y ++ k :: v from ht] at hr hp
    rw [plan_cons_append g i y k v v'] at hp
    exact ⟨i :: y, hr, .shift hg rfl hp⟩
  | @expand g gs goals hg hp =>
    have hr : s.rest = y ++ k :: v := ht
    have hplan : g.plan s.rest = g.plan (y ++ k :: v') := by
      -- Here `k` may be the next kind, but the plan does not read it.
      rw [hr]
      refine plan_append y k v' ?_
      intro goals' hshift
      rw [← hr, hp] at hshift
      cases hshift
    rw [hplan] at hp
    exact ⟨y, hr, .expand hg hp⟩
  | complete hg => exact ⟨y, ht, .complete hg⟩
  | count hg => exact ⟨y, ht, .count hg⟩
  | enter hg => exact ⟨y, ht, .enter hg⟩

theorem Proceeds.append (h : s.Proceeds t) (ht : t.rest = y ++ k :: v) (v' : List TokenKind) :
    ∃ x, s.rest = x ++ k :: v ∧
      Proceeds { s with rest := x ++ k :: v' } { t with rest := y ++ k :: v' } := by
  induction h generalizing y with
  | refl => exact ⟨y, ht, .refl⟩
  | tail _ a ih =>
    obtain ⟨z, hz, hstep⟩ := a.append ht v'
    obtain ⟨x, hx, hsteps⟩ := ih hz
    exact ⟨x, hx, hsteps.tail hstep⟩

/-- A fault at a kind does not depend on what stands behind it. -/
theorem Stumbles.cons (h : s.Stumbles e) (hs : s.rest = k :: v) (v' : List TokenKind) :
    Stumbles { s with rest := k :: v' } e := by
  cases h with
  | @between i ks hg hr hb hm =>
    obtain ⟨rfl, -⟩ := List.cons_eq_cons.1 (hs.symm.trans hr)
    exact .between hg rfl hb hm
  | @goal g gs e hg hp =>
    have hplan : g.plan s.rest = g.plan (k :: v') := by
      rw [hs]
      refine plan_one v' ?_
      intro goals' hshift
      rw [← hs, hp] at hshift
      cases hshift
    rw [hplan] at hp
    exact .goal hg hp

/-- What has been read without a fault can be continued to a program. -/
theorem exists_generates_of_proceeds {w : List TokenKind} (h : Proceeds { rest := w } t) :
    ∃ x v, w = x ++ t.rest ∧ Generates .program (x ++ v) := by
  obtain ⟨γ, x, hs, hw, he⟩ := h.expandAll?_rules
  obtain ⟨v, hv⟩ := hs.exists_completion
  refine ⟨x, v, hw, hv.trans ?_⟩
  have := (derives_of_expandAll? _ he).append [] (terminals v)
  simpa [terminals] using this

/-- No program begins with a text and a kind at which the parser stumbles. -/
theorem not_generates_of_stumbles (h : Proceeds { rest := x ++ k :: v } t)
    (ht : t.rest = k :: v) (hs : t.Stumbles e) (v' : List TokenKind) :
    ¬ Generates .program (x ++ k :: v') := by
  obtain ⟨z, hz, hsteps⟩ := h.append (y := []) ht v'
  obtain rfl : x = z := List.append_cancel_right hz
  obtain ⟨fs, hfs⟩ := faults_run_of_stumbles hsteps (hs.cons ht v')
  intro hprogram
  have hnone := faults_eq_nil_of_generates hprogram
  rw [faults_parseKinds] at hnone
  simp [hfs] at hnone

end ParseState

/-! ## The first fault -/

/-- The kinds in front of the index `k` are the beginning of a program, and with the kind at
`k`, or with the end there, they are not. -/
structure FailsAt (w : List TokenKind) (k : Nat) : Prop where
  viable : ∃ v, Generates .program (w.take k ++ v)
  stops : k < w.length → ∀ v, ¬ Generates .program (w.take (k + 1) ++ v)
  incomplete : k = w.length → ¬ Generates .program w

/-- There is one such place at most. -/
theorem FailsAt.unique {w : List TokenKind} {k k' : Nat} (hk : k ≤ w.length)
    (hk' : k' ≤ w.length) (h : FailsAt w k) (h' : FailsAt w k') : k = k' := by
  have hle : ∀ {i j : Nat}, j ≤ w.length → FailsAt w i → FailsAt w j → j ≤ i := by
    intro i j hj hi hj'
    by_contra hlt
    obtain ⟨v, hv⟩ := hj'.viable
    have hsplit := List.take_append_drop (i + 1) (w.take j)
    rw [List.take_take, Nat.min_eq_left (by omega)] at hsplit
    rw [← hsplit, List.append_assoc] at hv
    exact hi.stops (by omega) _ hv
  exact Nat.le_antisymm (hle hk h' h) (hle hk' h h')

/-- The first fault of a text lies where it fails to be a program. -/
theorem exists_failsAt {w : List TokenKind} (h : (parseKinds w).faults ≠ []) :
    ∃ fault fs k, (parseKinds w).faults = fault :: fs ∧ k + fault.left = w.length ∧
      FailsAt w k := by
  obtain hp | ⟨t, e, hp, hs⟩ := ParseState.proceeds_run_or_stumbles { rest := w }
  · have hnone := hp.faults_eq
    rw [faults_parseKinds, hnone] at h
    exact absurd rfl h
  · obtain ⟨fs, hfs⟩ := ParseState.faults_run_of_stumbles hp hs
    obtain ⟨x, v, rfl, hv⟩ := ParseState.exists_generates_of_proceeds hp
    refine ⟨⟨e, t.rest.length⟩, fs.reverse, x.length, ?_, by simp, ?_⟩
    · rw [faults_parseKinds, hfs]
      simp
    · constructor
      · refine ⟨v, ?_⟩
        rw [List.take_left]
        exact hv
      · intro hlt v'
        cases hr : t.rest with
        | nil => simp [hr] at hlt
        | cons k ks =>
          rw [hr] at hp
          have hnot := ParseState.not_generates_of_stumbles hp hr hs v'
          rw [List.take_length_add_append, List.append_assoc]
          exact hnot
      · intro _ hprogram
        exact h (faults_eq_nil_of_generates hprogram)

/-- The first diagnostic of a stream that is not accepted is reported at the token where the
stream fails to be a program, or at its end. -/
theorem head_diagnostics_failsAt {ts : List Token}
    (h : (Parser.ofTokens ts).run.1.accepted = false) :
    ∃ fault k, (parseKinds (programKinds ts)).faults.head? = some fault ∧
      k + fault.left = (programKinds ts).length ∧
      (Parser.ofTokens ts).run.2.1.head?
        = some (fault.diagnostic ((programTokens ts).getD k (endToken ts))) ∧
      FailsAt (programKinds ts) k := by
  have hfaults : (parseKinds (programKinds ts)).faults ≠ [] := by
    intro hnone
    rw [← Parser.accepted_iff, h] at hnone
    cases hnone
  obtain ⟨fault, fs, k, hfs, hk, hfails⟩ := exists_failsAt hfaults
  refine ⟨fault, k, by rw [hfs]; rfl, hk, ?_, hfails⟩
  show (Parser.ofTokens ts).diagnostics.head? = _
  rw [Parser.diagnostics_ofTokens, hfs, List.map_cons, List.head?_cons,
    Parser.tokenOf_ofTokens [] hk]
  rfl

/-- A statement that lacks its value. -/
def missingValue : List Token := tokensOf [.keyword .put, .punctuation .semicolon]

theorem failsAt_missingValue :
    (Parser.ofTokens missingValue).run.1.accepted = false ∧
      FailsAt (programKinds missingValue) 1 := by
  have hfaults : (parseKinds (programKinds missingValue)).faults = [⟨.expression, 1⟩] :=
    faults_parseKinds_of_runFor 20 _ (by decide) (by decide)
  have h : (Parser.ofTokens missingValue).run.1.accepted = false := by
    rw [← Bool.not_eq_true, Parser.accepted_iff, hfaults]
    simp
  obtain ⟨fault, k, hhead, hk, -, hfails⟩ := head_diagnostics_failsAt h
  rw [hfaults] at hhead
  cases hhead
  cases hk
  exact ⟨h, hfails⟩

end Pdl
