import Mathlib.Logic.Relation
import Pdl.Proofs.Parsing.State

/-!
# The steps of the parser

A step either goes on or reports a fault.  `ParseState.Advances` has one
constructor for each way to go on, `ParseState.Stumbles` one for each way to
meet a fault, and `step_eq_some_iff` says that the step function does nothing
else.  Every fact about runs is read off these two.

A step that goes on leaves the faults as they are (`Advances.faults_eq`), and
the others add one.  So a run goes on without faults to its end or to the place
where it first stumbles (`proceeds_run_or_stumbles`), and its first fault lies
there (`faults_run_of_stumbles`).
-/

namespace Pdl

namespace ParseState

/-! ## One step -/

/-- The ways to go on. -/
inductive Advances : ParseState → ParseState → Prop where
  /-- A member of the innermost list begins. -/
  | begin {s : ParseState} {k : TokenKind} {ks : List TokenKind} {goals : List Goal}
      (hg : s.goals = []) (hr : s.rest = k :: ks) (hb : s.inBlock = true → endsBlock k = false)
      (hm : memberGoals? s.inBlock k = some goals) :
      Advances s { s with goals := goals, rest := ks }
  /-- The innermost list ends. -/
  | leave {s : ParseState} {e : Enclosing} {outer : List Enclosing}
      (hg : s.goals = []) (ho : s.outer = e :: outer)
      (hr : ∀ k, s.rest.head? = some k → endsBlock k = true) :
      Advances s (s.leave e outer)
  | shift {s : ParseState} {g : Goal} {gs goals : List Goal} {k : TokenKind}
      {ks : List TokenKind} (hg : s.goals = g :: gs) (hr : s.rest = k :: ks)
      (hp : g.plan (k :: ks) = .shift goals) :
      Advances s { s with goals := goals ++ gs, rest := ks }
  | expand {s : ParseState} {g : Goal} {gs goals : List Goal} (hg : s.goals = g :: gs)
      (hp : g.plan s.rest = .expand goals) :
      Advances s { s with goals := goals ++ gs }
  | complete {s : ParseState} {r : Rule} {gs : List Goal} (hg : s.goals = .reduce r :: gs) :
      Advances s { s with goals := gs, rules := r :: s.rules }
  | count {s : ParseState} {r : Rule} {gs : List Goal} (hg : s.goals = .tally r :: gs) :
      Advances s { s with goals := gs, members := r :: s.members }
  /-- A list begins inside the present one. -/
  | enter {s : ParseState} {gs : List Goal} (hg : s.goals = .block :: gs) :
      Advances s { s with goals := [], members := [], outer := ⟨s.members, gs⟩ :: s.outer }

/-- The ways to meet a fault, with what was expected. -/
inductive Stumbles : ParseState → Expected → Prop where
  /-- No member of the innermost list begins with the next kind. -/
  | between {s : ParseState} {k : TokenKind} {ks : List TokenKind} (hg : s.goals = [])
      (hr : s.rest = k :: ks) (hb : s.inBlock = true → endsBlock k = false)
      (hm : memberGoals? s.inBlock k = none) : Stumbles s .statement
  | goal {s : ParseState} {g : Goal} {gs : List Goal} {expected : Expected}
      (hg : s.goals = g :: gs) (hp : g.plan s.rest = .fault expected) : Stumbles s expected

variable {s t u : ParseState}

theorem inBlock_of_outer {e : Enclosing} {outer : List Enclosing} (h : s.outer = e :: outer) :
    s.inBlock = true := by
  simp [inBlock, h]

theorem begin_cases {k : TokenKind} {ks : List TokenKind} (hg : s.goals = [])
    (hr : s.rest = k :: ks) (hb : s.inBlock = true → endsBlock k = false) :
    s.Advances (s.begin k ks) ∨ ∃ e, s.Stumbles e ∧ s.begin k ks = s.fail e := by
  unfold begin
  split
  · rename_i goals hm
    exact .inl (.begin hg hr hb hm)
  · rename_i hm
    exact .inr ⟨.statement, .between hg hr hb hm, rfl⟩

theorem stepBetween_cases (hg : s.goals = []) (h : s.stepBetween = some t) :
    s.Advances t ∨ ∃ e, s.Stumbles e ∧ t = s.fail e := by
  unfold stepBetween at h
  split at h
  · cases h
  · rename_i k ks ho hr
    cases h
    exact begin_cases hg hr (by simp [inBlock, ho])
  · rename_i e outer ho hr
    cases h
    exact .inl (.leave hg ho (by simp [hr]))
  · rename_i e outer k ks ho hr
    cases h
    cases hk : endsBlock k with
    | true => exact .inl (.leave hg ho (by simp [hr, hk]))
    | false => exact begin_cases hg hr (fun _ => hk)

theorem stepGoal_cases {g : Goal} {gs : List Goal} (hg : s.goals = g :: gs) :
    s.Advances (s.stepGoal g gs) ∨ ∃ e, s.Stumbles e ∧ s.stepGoal g gs = s.fail e := by
  unfold stepGoal
  split
  · rename_i goals hp
    obtain ⟨k, ks, hr⟩ := exists_of_plan_shift hp
    rw [hr] at hp ⊢
    exact .inl (.shift hg hr hp)
  · rename_i goals hp
    exact .inl (.expand hg hp)
  · rename_i e hp
    exact .inr ⟨e, .goal hg hp, rfl⟩
  · rename_i r hp
    obtain rfl := eq_reduce_of_plan hp
    exact .inl (.complete hg)
  · rename_i r hp
    obtain rfl := eq_tally_of_plan hp
    exact .inl (.count hg)
  · rename_i hp
    obtain rfl := eq_block_of_plan hp
    exact .inl (.enter hg)

theorem step_of_advances (h : s.Advances t) : s.step = some t := by
  cases h with
  | begin hg hr hb hm =>
    cases ho : s.outer with
    | nil => simp [step, stepBetween, begin, hg, hr, ho, hm]
    | cons e outer =>
      have hk := hb (inBlock_of_outer ho)
      simp [step, stepBetween, begin, hg, hr, ho, hm, hk]
  | @leave e outer hg ho hr =>
    cases hs : s.rest with
    | nil => simp [step, stepBetween, hg, ho, hs]
    | cons k ks =>
      have hk := hr k (by rw [hs]; rfl)
      simp [step, stepBetween, hg, ho, hs, hk]
  | shift hg hr hp => simp [step, stepGoal, hg, hr, hp]
  | expand hg hp => simp [step, stepGoal, hg, hp]
  | complete hg => simp [step, stepGoal, hg, Goal.plan]
  | count hg => simp [step, stepGoal, hg, Goal.plan]
  | enter hg => simp [step, stepGoal, hg, Goal.plan]

theorem step_of_stumbles {e : Expected} (h : s.Stumbles e) : s.step = some (s.fail e) := by
  cases h with
  | between hg hr hb hm =>
    cases ho : s.outer with
    | nil => simp [step, stepBetween, begin, hg, hr, ho, hm]
    | cons e outer =>
      have hk := hb (inBlock_of_outer ho)
      simp [step, stepBetween, begin, hg, hr, ho, hm, hk]
  | goal hg hp => simp [step, stepGoal, hg, hp]

/-- A step goes on or reports a fault. -/
theorem step_eq_some_iff :
    s.step = some t ↔ s.Advances t ∨ ∃ e, s.Stumbles e ∧ t = s.fail e := by
  constructor
  · intro h
    unfold step at h
    split at h
    · rename_i hg
      exact stepBetween_cases hg h
    · rename_i g gs hg
      cases h
      exact stepGoal_cases hg
  · rintro (h | ⟨e, h, rfl⟩)
    · exact step_of_advances h
    · exact step_of_stumbles h

theorem Advances.faults_eq (h : s.Advances t) : t.faults = s.faults := by
  cases h <;> rfl

/-! ## Many steps -/

/-- Any number of steps. -/
abbrev Reaches : ParseState → ParseState → Prop :=
  Relation.ReflTransGen fun s t => s.step = some t

/-- Any number of steps without a fault. -/
abbrev Proceeds : ParseState → ParseState → Prop := Relation.ReflTransGen Advances

theorem Proceeds.reaches (h : s.Proceeds t) : s.Reaches t :=
  Relation.ReflTransGen.mono (fun _ _ => step_of_advances) _ _ h

theorem Proceeds.faults_eq (h : s.Proceeds t) : t.faults = s.faults := by
  induction h with
  | refl => rfl
  | tail _ a ih => exact a.faults_eq.trans ih

theorem run_eq_of_step (h : s.step = some t) : s.run = t.run := by
  rw [run]
  split
  · rename_i hn
    rw [hn] at h
    cases h
  · rename_i t' ht
    rw [ht] at h
    cases h
    rfl

/-- What is reached has the same end. -/
theorem Reaches.run_eq (h : s.Reaches t) : s.run = t.run := by
  induction h with
  | refl => rfl
  | tail _ a ih => exact ih.trans (run_eq_of_step a)

theorem run_eq_self (h : s.step = none) : s.run = s := by
  rw [run]
  split
  · rfl
  · rename_i ht
    rw [ht] at h
    cases h

/-- At most `n` steps.  Unlike `run` this can be evaluated in a proof. -/
def runFor : Nat → ParseState → ParseState
  | 0, s => s
  | n + 1, s =>
      match s.step with
      | none => s
      | some t => runFor n t

/-- A bounded run that comes to its end is the whole run. -/
theorem run_eq_runFor {n : Nat} (h : (runFor n s).step = none) : s.run = runFor n s := by
  induction n generalizing s with
  | zero => exact run_eq_self h
  | succ n ih =>
    cases hs : s.step with
    | none =>
      rw [runFor, hs]
      exact run_eq_self hs
    | some t =>
      rw [runFor, hs] at h ⊢
      exact (run_eq_of_step hs).trans (ih h)

theorem reaches_run (s : ParseState) : s.Reaches s.run := by
  fun_induction run s with
  | case1 s h => exact .refl
  | case2 s t h ih => exact .head h ih

theorem exists_faults_of_reaches (h : s.Reaches t) : ∃ fs, t.faults = fs ++ s.faults := by
  induction h with
  | refl => exact ⟨[], rfl⟩
  | tail _ a ih =>
    obtain ⟨fs, hfs⟩ := ih
    obtain a | ⟨e, -, rfl⟩ := step_eq_some_iff.1 a
    · exact ⟨fs, a.faults_eq.trans hfs⟩
    · exact ⟨⟨e, _⟩ :: fs, congrArg (_ :: ·) hfs⟩

/-- A fault that is met on the way is met where a step stumbles. -/
theorem Reaches.exists_stumbles (h : s.Reaches t) {f : SyntaxFault} (hf : f ∈ t.faults) :
    f ∈ s.faults ∨ ∃ u e, s.Reaches u ∧ u.Stumbles e ∧ f = ⟨e, u.rest.length⟩ := by
  induction h with
  | refl => exact .inl hf
  | @tail t t' h a ih =>
    obtain a | ⟨e, k, rfl⟩ := step_eq_some_iff.1 a
    · exact ih (a.faults_eq ▸ hf)
    · rcases List.mem_cons.1 hf with rfl | hf
      · exact .inr ⟨t, e, h, k, rfl⟩
      · exact ih hf

/-- A run goes on without a fault up to its end or up to its first fault. -/
theorem proceeds_run_or_stumbles (s : ParseState) :
    s.Proceeds s.run ∨ ∃ t e, s.Proceeds t ∧ t.Stumbles e := by
  fun_induction run s with
  | case1 s h => exact .inl .refl
  | case2 s t h ih =>
    obtain a | ⟨e, a, -⟩ := step_eq_some_iff.1 h
    · obtain ih | ⟨t', e, ih, k⟩ := ih
      · exact .inl (.head a ih)
      · exact .inr ⟨t', e, .head a ih, k⟩
    · exact .inr ⟨s, e, .refl, a⟩

/-- The first fault of a run that meets one lies where the run first stumbles. -/
theorem faults_run_of_stumbles {e : Expected} (h : s.Proceeds t) (k : t.Stumbles e) :
    ∃ fs, s.run.faults = fs ++ ⟨e, t.rest.length⟩ :: s.faults := by
  have hr : (t.fail e).Reaches s.run := by
    rw [h.reaches.run_eq, run_eq_of_step (step_of_stumbles k)]
    exact reaches_run _
  obtain ⟨fs, hfs⟩ := exists_faults_of_reaches hr
  refine ⟨fs, hfs.trans ?_⟩
  rw [← h.faults_eq]
  rfl

end ParseState

end Pdl
