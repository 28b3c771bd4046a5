import Pdl.Proofs.Parsing.Stack
import Pdl.Proofs.Parsing.Steps

/-!
# Reading within a statement

`Reads gs ks rs gs' ks'` says that the goals `gs` in front of the kinds `ks`
become the goals `gs'` in front of `ks'` without a fault and without entering
or counting anything, and that the rules `rs` are recorded on the way, in this
order.  It is a run of the parser within one statement (`Reads.proceeds`).

What is read is what the stack says: the rules undo a rightmost derivation of
the kinds that have been read (`Reads.builds`).  Reading goes on until there is
a fault, a block, a member to count or nothing to do (`exists_reads_stuck`).
The rules that it records are those of parts of statements, unless the goals
in front of the first block ask for others (`Reads.not_structural`).
-/

namespace Pdl

/-- Reading within a statement. -/
inductive Reads :
    List Goal → List TokenKind → List Rule → List Goal → List TokenKind → Prop where
  | refl {gs : List Goal} {ks : List TokenKind} : Reads gs ks [] gs ks
  | shift {g : Goal} {gs goals gs' : List Goal} {k : TokenKind} {ks ks' : List TokenKind}
      {rs : List Rule} (hp : g.plan (k :: ks) = .shift goals)
      (h : Reads (goals ++ gs) ks rs gs' ks') : Reads (g :: gs) (k :: ks) rs gs' ks'
  | expand {g : Goal} {gs goals gs' : List Goal} {ks ks' : List TokenKind} {rs : List Rule}
      (hp : g.plan ks = .expand goals) (h : Reads (goals ++ gs) ks rs gs' ks') :
      Reads (g :: gs) ks rs gs' ks'
  | complete {r : Rule} {gs gs' : List Goal} {ks ks' : List TokenKind} {rs : List Rule}
      (h : Reads gs ks rs gs' ks') : Reads (.reduce r :: gs) ks (r :: rs) gs' ks'

namespace Reads

variable {gs gs' gs'' : List Goal} {ks ks' ks'' : List TokenKind} {rs ss : List Rule}

theorem trans (h : Reads gs ks rs gs' ks') (k : Reads gs' ks' ss gs'' ks'') :
    Reads gs ks (rs ++ ss) gs'' ks'' := by
  induction h with
  | refl => exact k
  | shift hp _ ih => exact .shift hp (ih k)
  | expand hp _ ih => exact .expand hp (ih k)
  | complete _ ih => exact .complete (ih k)

/-- The token that a goal asks for is read. -/
theorem token (k : TokenKind) (gs : List Goal) (ks : List TokenKind) :
    Reads (.token k :: gs) (k :: ks) [] gs ks := by
  have hp : (Goal.token k).plan (k :: ks) = .shift [] := by simp [Goal.plan]
  exact .shift hp .refl

/-- All rules that are due are recorded. -/
theorem reduces (rs : List Rule) (gs : List Goal) (ks : List TokenKind) :
    Reads (rs.map .reduce ++ gs) ks rs gs ks := by
  induction rs with
  | nil => exact .refl
  | cons r rs ih => exact .complete ih

/-- The rules at the end of parameters or arguments are recorded. -/
theorem listEnd (a m r : Rule) (n : Nat) (gs : List Goal) (ks : List TokenKind) :
    Reads (.reduce a :: reduceTimes n m ++ [.reduce r] ++ gs) ks
      (a :: List.replicate n m ++ [r]) gs ks := by
  have := reduces (a :: List.replicate n m ++ [r]) gs ks
  simpa [reduceTimes] using this

/-- Reading is a run of the parser. -/
theorem proceeds (h : Reads gs ks rs gs' ks') {s : ParseState} (hg : s.goals = gs)
    (hr : s.rest = ks) :
    s.Proceeds { s with goals := gs', rest := ks', rules := rs.reverse ++ s.rules } := by
  induction h generalizing s with
  | refl =>
    subst hg hr
    exact .refl
  | shift hp _ ih => exact .head (.shift hg hr hp) (ih rfl rfl)
  | expand hp _ ih =>
    subst hr
    exact .head (.expand hg hp) (ih rfl rfl)
  | @complete r _ _ _ _ rs _ ih =>
    refine .head (.complete hg) ?_
    have := ih (s := { s with goals := _, rules := r :: s.rules }) rfl hr
    simpa using this

/-- The rules that are recorded undo a rightmost derivation of what is read. -/
theorem builds (h : Reads gs ks rs gs' ks') {r : Rule} {σ : List GrammarSymbol}
    (k : Builds gs r σ) :
    ∃ x σ', ks = x ++ ks' ∧ Builds gs' r σ' ∧
      expandAll? rs.reverse σ' = some (σ ++ terminals x) := by
  induction h generalizing σ with
  | refl => exact ⟨[], σ, rfl, k, by simp [expandAll?]⟩
  | @shift _ _ _ _ t _ _ _ hp _ ih =>
    obtain ⟨x, σ', rfl, k', hσ⟩ := ih (k.shift hp)
    exact ⟨t :: x, σ', rfl, k', by simpa using hσ⟩
  | expand hp _ ih => exact ih (k.expand hp)
  | complete _ ih =>
    obtain ⟨σ₁, k₁, hstep⟩ := k.complete
    obtain ⟨x, σ', hx, k', hσ⟩ := ih k₁
    refine ⟨x, σ', hx, k', ?_⟩
    rw [List.reverse_cons]
    exact expandAll?_append hσ (expandAll?_cons (hstep x) rfl)

end Reads

/-! ## Where reading stops -/

/-- Reading goes no further. -/
inductive Stuck : List Goal → List TokenKind → Prop where
  | nil {ks : List TokenKind} : Stuck [] ks
  | fault {g : Goal} {gs : List Goal} {ks : List TokenKind} {expected : Expected}
      (hp : g.plan ks = .fault expected) : Stuck (g :: gs) ks
  | block {gs : List Goal} {ks : List TokenKind} : Stuck (.block :: gs) ks
  | tally {r : Rule} {gs : List Goal} {ks : List TokenKind} : Stuck (.tally r :: gs) ks

/-- Reading goes on until it is stuck. -/
theorem exists_reads_stuck (gs : List Goal) (ks : List TokenKind) :
    ∃ rs gs' ks', Reads gs ks rs gs' ks' ∧ Stuck gs' ks' := by
  cases gs with
  | nil => exact ⟨[], [], ks, .refl, .nil⟩
  | cons g gs =>
    cases hp : g.plan ks with
    | shift goals =>
      obtain ⟨k, ks₁, hks⟩ := exists_of_plan_shift hp
      have hlen : ks₁.length < ks.length := by simp [hks]
      obtain ⟨rs, gs', ks', h, hs⟩ := exists_reads_stuck (goals ++ gs) ks₁
      rw [hks] at hp ⊢
      exact ⟨rs, gs', ks', .shift hp h, hs⟩
    | expand goals =>
      have hw := goalsWeight_lt_of_plan hp
      obtain ⟨rs, gs', ks', h, hs⟩ := exists_reads_stuck (goals ++ gs) ks
      exact ⟨rs, gs', ks', .expand hp h, hs⟩
    | fault e => exact ⟨[], _, ks, .refl, .fault hp⟩
    | complete r =>
      obtain rfl := eq_reduce_of_plan hp
      obtain ⟨rs, gs', ks', h, hs⟩ := exists_reads_stuck gs ks
      exact ⟨r :: rs, gs', ks', .complete h, hs⟩
    | count r =>
      obtain rfl := eq_tally_of_plan hp
      exact ⟨[], _, ks, .refl, .tally⟩
    | enter =>
      obtain rfl := eq_block_of_plan hp
      exact ⟨[], _, ks, .refl, .block⟩
termination_by (ks.length, goalsWeight gs)
decreasing_by
  · exact Prod.Lex.left _ _ hlen
  · exact Prod.Lex.right _ (by simpa using hw)
  · exact Prod.Lex.right _ (by simpa using g.weight_pos)

/-! ## Which rules are recorded -/

/-- Whether a rule is that of a member of a list, of a function or of a loop. -/
def Rule.isStructural : Rule → Bool
  | programStatement | programFunction | bodyStatement | function | whileDo => true
  | _ => false

/-- Whether the goals in front of the first block ask for no such rule. -/
def noneStructural : List Goal → Bool
  | .reduce r :: gs => !r.isStructural && noneStructural gs
  | .block :: _ | [] => true
  | _ :: gs => noneStructural gs

theorem noneStructural_append {goals gs : List Goal} (h : noneStructural goals = true)
    (k : noneStructural gs = true) : noneStructural (goals ++ gs) = true := by
  induction goals with
  | nil => exact k
  | cons g goals ih =>
    cases g with
    | reduce r =>
      simp only [noneStructural, Bool.and_eq_true, List.cons_append] at h ⊢
      exact ⟨h.1, ih h.2⟩
    | block => rfl
    | _ => exact ih h

theorem noneStructural_reduceTimes {r : Rule} (hr : r.isStructural = false) (n : Nat) :
    noneStructural (reduceTimes n r) = true := by
  induction n with
  | zero => rfl
  | succ n ih =>
    rw [reduceTimes, List.replicate_succ, noneStructural, hr]
    exact ih

theorem noneStructural_tail {g : Goal} {gs : List Goal} (hg : g ≠ .block)
    (h : noneStructural (g :: gs) = true) : noneStructural gs = true := by
  cases g with
  | reduce r =>
    rw [noneStructural, Bool.and_eq_true] at h
    exact h.2
  | block => exact absurd rfl hg
  | _ => exact h

/-- Goals that come from a goal ask for no such rule. -/
theorem noneStructural_of_readings {g : Goal} {p : TokenKind × List Goal}
    (h : p ∈ g.readings) : noneStructural p.2 = true := by
  have hall : ∀ p ∈ g.readings, noneStructural p.2 = true := by
    cases g <;> simp [Goal.readings, simpleReadings, typeReadings, typeKinds, noneStructural,
      Rule.isStructural]
  exact hall p h

theorem noneStructural_of_expansions {g : Goal} {goals : List Goal} (h : goals ∈ g.expansions) :
    noneStructural goals = true := by
  have hall : ∀ goals ∈ g.expansions, noneStructural goals = true := by
    cases g with
    | moreParameters n | moreArguments n =>
      intro goals hgoals
      rw [List.mem_singleton.1 hgoals, List.cons_append]
      exact noneStructural_append (noneStructural_reduceTimes rfl n) rfl
    | _ => simp [Goal.expansions, noneStructural, Rule.isStructural]
  exact hall goals h

theorem noneStructural_of_memberGoals {inBlock : Bool} {k : TokenKind} {goals : List Goal}
    (h : memberGoals? inBlock k = some goals) : noneStructural goals = true := by
  have hall : ∀ b, ∀ p ∈ memberReadings b, noneStructural p.2 = true := by decide
  exact hall inBlock _ (mem_memberReadings h)

/-- Reading records the rules of parts of statements only, if no others are due before the
first block. -/
theorem Reads.not_structural {gs gs' : List Goal} {ks ks' : List TokenKind} {rs : List Rule}
    (h : Reads gs ks rs gs' ks') (k : noneStructural gs = true) :
    ∀ r ∈ rs, r.isStructural = false := by
  induction h with
  | refl => simp
  | shift hp _ ih =>
    refine ih (noneStructural_append (noneStructural_of_readings (mem_readings_of_plan hp))
      (noneStructural_tail ?_ k))
    rintro rfl
    cases hp
  | expand hp _ ih =>
    refine ih (noneStructural_append (noneStructural_of_expansions (mem_expansions_of_plan hp))
      (noneStructural_tail ?_ k))
    rintro rfl
    cases hp
  | complete _ ih =>
    rw [noneStructural, Bool.and_eq_true, Bool.not_eq_true'] at k
    intro r hr
    rcases List.mem_cons.1 hr with rfl | hr
    · exact k.1
    · exact ih k.2 r hr

end Pdl
