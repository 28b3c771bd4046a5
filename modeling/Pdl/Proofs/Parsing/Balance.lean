import Mathlib.Algebra.BigOperators.Group.List.Basic
import Mathlib.Algebra.Ring.Int.Defs
import Mathlib.Algebra.Ring.Nat
import Pdl.Proofs.Parsing.Plans
import Pdl.Proofs.Parsing.Trace

/-!
# Balances of the rules of a trace

What a trace completes it also uses, even where the program has faults: it has as
many statements as members of lists that are statements, as many operands of
negations as negations and plain operands, and so on.

A `Balance` lets some rules count for it and some against it.  The rules recorded
so far need not be even, since rules are still due.  So the goals count too: a goal
that records a rule for that rule, and a construct for what its rules come to.  In
a sound balance no step that goes on changes the sum (`Advances.ofState_eq`).

A fault gives up goals.  Where it can do so, at a goal that records nothing, the
goals up to the end of the statement count for nothing, or at least not against the
balance (`Balance.atLeast`).  So a fault does not make the sum larger.  If the
reversed balance is sound as well, it does not make it smaller either, and the
rules are even in all traces (`ofRules_run_of_mem_evenBalances`).
-/

namespace Pdl

/-! ## Balances -/

/-- A balance of rules against each other. -/
structure Balance where
  /-- The rules that count for it. -/
  credits : List Rule
  /-- The rules that count against it. -/
  debits : List Rule
  /-- What the rules that are due for a construct come to. -/
  promise : Goal → Int := fun _ => 0

/-- Whether the goal records a rule, so that no fault can lie at it. -/
def Goal.isRecord : Goal → Bool
  | .reduce _ | .tally _ => true
  | _ => false

theorem isRecord_of_plan {g : Goal} {ahead : List TokenKind} {p : Plan} (h : g.plan ahead = p)
    (hcomplete : ∀ r, p ≠ .complete r) (hcount : ∀ r, p ≠ .count r) : g.isRecord = false := by
  cases g with
  | reduce r => exact absurd h.symm (hcomplete r)
  | tally r => exact absurd h.symm (hcount r)
  | _ => rfl

namespace Balance

/-- What a list of rules comes to. -/
def ofRules (b : Balance) (rs : List Rule) : Int :=
  ((b.credits.map fun r => rs.count r).sum : Nat) - ((b.debits.map fun r => rs.count r).sum : Nat)

/-- The rules on both sides are equally many. -/
def Even (b : Balance) (rs : List Rule) : Prop :=
  (b.credits.map fun r => rs.count r).sum = (b.debits.map fun r => rs.count r).sum

/-- What a goal comes to.  The end of a block is due for the block. -/
def ofGoal (b : Balance) : Goal → Int
  | .reduce r | .tally r => b.ofRules [r]
  | .block => b.ofRules [.bodyEnd]
  | g => b.promise g

/-- What a list of goals comes to. -/
def ofGoals (b : Balance) (gs : List Goal) : Int := (gs.map b.ofGoal).sum

/-- From each goal on at which a fault can lie, the goals come to `v` at least. -/
def atLeast (b : Balance) (v : Int) : List Goal → Bool
  | [] => true
  | g :: gs => (g.isRecord || decide (v ≤ b.ofGoals (g :: gs))) && b.atLeast v gs

/-- What follows a goal comes to what the goal comes to, and gives up nothing in a fault. -/
structure Sound (b : Balance) : Prop where
  readings : ∀ {g : Goal}, ∀ p ∈ g.readings,
    b.ofGoals p.2 = b.ofGoal g ∧ b.atLeast (b.ofGoal g) p.2 = true
  expansions : ∀ {g : Goal}, ∀ goals ∈ g.expansions,
    b.ofGoals goals = b.ofGoal g ∧ b.atLeast (b.ofGoal g) goals = true
  members : ∀ inBlock, ∀ p ∈ memberReadings inBlock,
    b.ofGoals p.2 = 0 ∧ b.atLeast 0 p.2 = true

variable {b : Balance}

@[simp] theorem ofRules_nil : b.ofRules [] = 0 := by simp [ofRules]

@[simp] theorem ofRules_append (rs qs : List Rule) :
    b.ofRules (rs ++ qs) = b.ofRules rs + b.ofRules qs := by
  simp only [ofRules, List.count_append, List.sum_map_add]
  omega

theorem ofRules_cons (r : Rule) (rs : List Rule) :
    b.ofRules (r :: rs) = b.ofRules [r] + b.ofRules rs := ofRules_append [r] rs

@[simp] theorem ofRules_reverse (rs : List Rule) : b.ofRules rs.reverse = b.ofRules rs := by
  simp [ofRules, List.count_reverse]

theorem ofRules_eq_zero_iff {rs : List Rule} : b.ofRules rs = 0 ↔ b.Even rs := by
  unfold ofRules Even
  omega

theorem ofRules_nonpos_iff {rs : List Rule} :
    b.ofRules rs ≤ 0 ↔
      (b.credits.map fun r => rs.count r).sum ≤ (b.debits.map fun r => rs.count r).sum := by
  unfold ofRules
  omega

theorem ofRules_eq_zero_of_forall {rs : List Rule} (h : ∀ r ∈ rs, b.ofRules [r] = 0) :
    b.ofRules rs = 0 := by
  induction rs with
  | nil => exact ofRules_nil
  | cons r rs ih =>
    rw [ofRules_cons, h r (.head _), ih fun q hq => h q (.tail _ hq), Int.add_zero]

@[simp] theorem ofGoals_nil : b.ofGoals [] = 0 := rfl

@[simp] theorem ofGoals_cons (g : Goal) (gs : List Goal) :
    b.ofGoals (g :: gs) = b.ofGoal g + b.ofGoals gs := List.sum_cons

@[simp] theorem ofGoals_append (gs hs : List Goal) :
    b.ofGoals (gs ++ hs) = b.ofGoals gs + b.ofGoals hs := by
  simp [ofGoals]

theorem ofGoals_map_reduce (rs : List Rule) : b.ofGoals (rs.map .reduce) = b.ofRules rs := by
  induction rs with
  | nil => simp
  | cons r rs ih =>
    rw [List.map_cons, ofGoals_cons, ih, ofRules_cons]
    rfl

theorem atLeast_tail {v : Int} {g : Goal} {gs : List Goal} (h : b.atLeast v (g :: gs) = true) :
    b.atLeast v gs = true := by
  rw [atLeast, Bool.and_eq_true] at h
  exact h.2

theorem atLeast_cons_inv {v : Int} {g : Goal} {gs : List Goal}
    (h : b.atLeast v (g :: gs) = true) (hg : g.isRecord = false) :
    v ≤ b.ofGoal g + b.ofGoals gs ∧ b.atLeast v gs = true := by
  rw [atLeast, hg, Bool.false_or, Bool.and_eq_true, decide_eq_true_eq] at h
  exact h

theorem atLeast_map_reduce (v : Int) (rs : List Rule) :
    b.atLeast v (rs.map .reduce) = true := by
  induction rs with
  | nil => rfl
  | cons r rs ih => simpa [atLeast, Goal.isRecord] using ih

/-- Goals that may be given up, in front of others that may. -/
theorem atLeast_append {v : Int} {goals gs : List Goal} (h : b.atLeast v goals = true)
    (hgs : b.atLeast 0 gs = true) (hsum : 0 ≤ v + b.ofGoals gs) :
    b.atLeast 0 (goals ++ gs) = true := by
  induction goals with
  | nil => exact hgs
  | cons g goals ih =>
    simp only [atLeast, Bool.and_eq_true, Bool.or_eq_true, decide_eq_true_eq] at h
    obtain ⟨hfirst, hrest⟩ := h
    rw [List.cons_append, atLeast, ih hrest, Bool.and_true, Bool.or_eq_true, decide_eq_true_eq]
    refine hfirst.imp_right fun hv => ?_
    rw [← List.cons_append, ofGoals_append]
    omega

/-- The balance with the two sides exchanged. -/
def reverse (b : Balance) : Balance := ⟨b.debits, b.credits, fun g => -b.promise g⟩

theorem ofRules_reversed (rs : List Rule) : b.reverse.ofRules rs = -b.ofRules rs := by
  simp only [ofRules, reverse]
  omega

end Balance

/-! ## The balances of the grammar -/

namespace Balance

open Rule

/-- Statements against members of lists that are statements. -/
def statements : Balance where
  credits := [ifThen, whileDo, declare, declareInit, simpleStatement]
  debits := [programStatement, bodyStatement]
  promise
    | .afterType => 1
    | _ => 0

/-- Functions against members of lists that are functions. -/
def functions : Balance where
  credits := [function]
  debits := [programFunction]

/-- Simple statements against the statements that are or end in one. -/
def simples : Balance where
  credits := [assign, addAssign, callStatement, put, get, .return]
  debits := [simpleStatement, ifThen]
  promise
    | .simple | .afterName => 1
    | _ => 0

/-- Operands of negations against negations and what stands in their place. -/
def primaries : Balance where
  credits := [.variable, parenthesised, call, integer, string]
  debits := [not, notOperand]
  promise
    | .primary => 1
    | _ => 0

/-- Operands of additions against additions and what stands in their place. -/
def operands : Balance where
  credits := [not, notOperand]
  debits := [add, addOperand]
  promise
    | .operand => 1
    | _ => 0

/-- The ends of programs.  No goal records one. -/
def ends : Balance where
  credits := [programEnd]
  debits := []

/-- Operands of comparisons that are complete against those that have begun. -/
def sums : Balance where
  credits := [equal, equalOperand]
  debits := [addOperand]
  promise
    | .sum => -1
    | _ => 0

/-- Blocks with their closing brace against those that have ended. -/
def blocks : Balance where
  credits := [whileDo, function]
  debits := [bodyEnd]

/-- The balances that no fault disturbs. -/
def evenBalances : List Balance := [statements, functions, simples, primaries, operands, ends]

/-- The balances, on both sides where a fault does not disturb them. -/
def soundBalances : List Balance := evenBalances ++ evenBalances.map reverse ++ [sums, blocks]

/-- Tokens, and lists that go on, come to nothing. -/
theorem ofGoal_of_mem {b : Balance} (h : b ∈ soundBalances) :
    (∀ k, b.ofGoal (.token k) = 0) ∧ (∀ n, b.ofGoal (.moreParameters n) = 0) ∧
      (∀ n, b.ofGoal (.moreArguments n) = 0) ∧ b.ofGoal .type = 0 ∧ b.ofGoal .expression = 0 := by
  have hall : ∀ b ∈ soundBalances, (∀ k, b.ofGoal (.token k) = 0) ∧
      (∀ n, b.ofGoal (.moreParameters n) = 0) ∧ (∀ n, b.ofGoal (.moreArguments n) = 0) ∧
      b.ofGoal .type = 0 ∧ b.ofGoal .expression = 0 := by
    simp [soundBalances, evenBalances, ofGoal, reverse, statements, functions, simples, primaries,
      operands, ends, sums, blocks]
  exact hall b h

/-- A list of parameters or arguments comes to nothing, if its rules count in no way. -/
theorem ofGoals_list {b : Balance} {ending more whole : Rule}
    (hrules : ∀ r ∈ [ending, more, whole], b.ofRules [r] = 0) (n : Nat) :
    b.ofGoals (.reduce ending :: reduceTimes n more ++ [.reduce whole]) = 0 ∧
      b.atLeast 0 (.reduce ending :: reduceTimes n more ++ [.reduce whole]) = true := by
  have hmap : .reduce ending :: reduceTimes n more ++ [.reduce whole]
      = (ending :: List.replicate n more ++ [whole]).map Goal.reduce := by
    simp [reduceTimes]
  rw [hmap]
  refine ⟨?_, atLeast_map_reduce _ _⟩
  rw [ofGoals_map_reduce]
  refine ofRules_eq_zero_of_forall ?_
  intro r hr
  refine hrules r ?_
  simp only [List.cons_append, List.mem_cons, List.mem_append, List.mem_replicate] at hr ⊢
  tauto

/-- The rules of lists of parameters and arguments count in no balance. -/
theorem ofRules_list_of_mem {b : Balance} (h : b ∈ soundBalances) :
    (∀ r ∈ [parametersEnd, parametersMore, parameters], b.ofRules [r] = 0) ∧
      ∀ r ∈ [argumentsEnd, argumentsMore, arguments], b.ofRules [r] = 0 := by
  revert b; decide

theorem sound_of_mem {b : Balance} (h : b ∈ soundBalances) : b.Sound where
  readings {g} := by
    cases g with
    | token k =>
      obtain ⟨htoken, -⟩ := ofGoal_of_mem h
      simp [Goal.readings, atLeast, htoken]
    | moreParameters n | moreArguments n =>
      obtain ⟨htoken, hparameters, harguments, htype, hexpression⟩ := ofGoal_of_mem h
      simp [Goal.readings, atLeast, htoken, hparameters, harguments, htype, hexpression]
    | reduce | tally => simp [Goal.readings]
    | _ => revert b; decide
  expansions {g} := by
    cases g with
    | moreParameters n =>
      obtain ⟨-, hparameters, -⟩ := ofGoal_of_mem h
      simpa only [Goal.expansions, List.forall_mem_singleton, hparameters]
        using ofGoals_list (ofRules_list_of_mem h).1 n
    | moreArguments n =>
      obtain ⟨-, -, harguments, -⟩ := ofGoal_of_mem h
      simpa only [Goal.expansions, List.forall_mem_singleton, harguments]
        using ofGoals_list (ofRules_list_of_mem h).2 n
    | reduce | tally | token => simp [Goal.expansions]
    | _ => revert b; decide
  members := by
    revert b; decide

end Balance

/-! ## Runs -/

namespace Balance

/-- What the lists around the innermost one come to.  The end of the list inside each of them
is still due. -/
def ofOuter (b : Balance) : List Enclosing → Int
  | [] => 0
  | e :: outer => b.ofRules e.members + b.ofGoals e.goals + b.ofRules [.bodyEnd] + b.ofOuter outer

/-- What the rules recorded and the rules that are due come to. -/
def ofState (b : Balance) (s : ParseState) : Int :=
  b.ofRules s.rules + b.ofRules s.members + b.ofGoals s.goals + b.ofOuter s.outer

end Balance

namespace ParseState

/-- A state that is even, but for what has been given up in faults. -/
structure Balanced (b : Balance) (s : ParseState) : Prop where
  goals : b.atLeast 0 s.goals = true
  outer : ∀ e ∈ s.outer, b.atLeast 0 e.goals = true
  sum_le : b.ofState s ≤ 0
  sum_eq : s.faults = [] → b.ofState s = 0

variable {b : Balance} {s t : ParseState}

theorem balanced_start (b : Balance) (w : List TokenKind) : Balanced b { rest := w } where
  goals := rfl
  outer := by simp
  sum_le := by simp [Balance.ofState, Balance.ofOuter]
  sum_eq := by simp [Balance.ofState, Balance.ofOuter]

/-- No step that goes on changes what the rules come to. -/
theorem Advances.ofState_eq (h : s.Advances t) (hb : b.Sound) : b.ofState t = b.ofState s := by
  cases h with
  | begin hg hr hb' hm =>
    obtain ⟨hsum, -⟩ := hb.members _ _ (mem_memberReadings hm)
    simp [Balance.ofState, hg, hsum]
  | leave hg ho hr =>
    have hend : b.ofGoal (.reduce .bodyEnd) = b.ofRules [.bodyEnd] := rfl
    simp only [Balance.ofState, ParseState.leave, hg, ho, Balance.ofOuter, List.cons_append,
      Balance.ofGoals_cons, Balance.ofGoals_append, Balance.ofGoals_map_reduce,
      Balance.ofGoals_nil, hend]
    omega
  | shift hg hr hp =>
    obtain ⟨hsum, -⟩ := hb.readings _ (mem_readings_of_plan hp)
    simp [Balance.ofState, hg, hsum]
  | expand hg hp =>
    obtain ⟨hsum, -⟩ := hb.expansions _ (mem_expansions_of_plan hp)
    simp [Balance.ofState, hg, hsum]
  | @complete r gs hg =>
    have hrule : b.ofGoal (.reduce r) = b.ofRules [r] := rfl
    simp only [Balance.ofState, hg, Balance.ofGoals_cons, hrule, Balance.ofRules_cons r s.rules]
    omega
  | @count r gs hg =>
    have hrule : b.ofGoal (.tally r) = b.ofRules [r] := rfl
    simp only [Balance.ofState, hg, Balance.ofGoals_cons, hrule, Balance.ofRules_cons r s.members]
    omega
  | enter hg =>
    have hblock : b.ofGoal .block = b.ofRules [.bodyEnd] := rfl
    simp only [Balance.ofState, hg, Balance.ofOuter, Balance.ofGoals_cons, hblock,
      Balance.ofGoals_nil, Balance.ofRules_nil]
    omega

/-- Goals at which a fault lies come to nothing, or not against the balance. -/
theorem Stumbles.ofGoals_nonneg {e : Expected} (h : s.Stumbles e) (hs : s.Balanced b) :
    0 ≤ b.ofGoals s.goals := by
  cases h with
  | between hg hr hb hm => simp [hg]
  | goal hg hp =>
    have hgoals := hs.goals
    rw [hg] at hgoals
    rw [hg, Balance.ofGoals_cons]
    exact (Balance.atLeast_cons_inv hgoals (isRecord_of_plan hp (by simp) (by simp))).1

theorem Balanced.advances (hs : s.Balanced b) (hb : b.Sound) (h : s.Advances t) :
    t.Balanced b := by
  have hgoals := hs.goals
  have hsum := h.ofState_eq hb
  refine ⟨?_, ?_, hsum ▸ hs.sum_le, fun hf => hsum ▸ hs.sum_eq (h.faults_eq ▸ hf)⟩
  · cases h with
    | begin hg hr hb' hm => exact (hb.members _ _ (mem_memberReadings hm)).2
    | @leave e outer hg ho hr =>
      have he : b.atLeast 0 e.goals = true := hs.outer e (by simp [ho])
      exact Balance.atLeast_append (Balance.atLeast_map_reduce _ (.bodyEnd :: s.members)) he
        (Int.le_of_eq (Int.add_left_neg (b.ofGoals e.goals)).symm)
    | shift hg hr hp =>
      rw [hg] at hgoals
      obtain ⟨hfirst, hrest⟩ :=
        Balance.atLeast_cons_inv hgoals (isRecord_of_plan hp (by simp) (by simp))
      exact Balance.atLeast_append (hb.readings _ (mem_readings_of_plan hp)).2 hrest hfirst
    | expand hg hp =>
      rw [hg] at hgoals
      obtain ⟨hfirst, hrest⟩ :=
        Balance.atLeast_cons_inv hgoals (isRecord_of_plan hp (by simp) (by simp))
      exact Balance.atLeast_append (hb.expansions _ (mem_expansions_of_plan hp)).2 hrest hfirst
    | complete hg | count hg =>
      rw [hg] at hgoals
      exact Balance.atLeast_tail hgoals
    | enter hg => rfl
  · cases h with
    | leave hg ho hr =>
      intro f hf
      exact hs.outer f (ho ▸ .tail _ hf)
    | enter hg =>
      rw [hg] at hgoals
      simpa using ⟨Balance.atLeast_tail hgoals, hs.outer⟩
    | _ => exact hs.outer

theorem Balanced.fail {e : Expected} (hs : s.Balanced b) (h : s.Stumbles e) :
    (s.fail e).Balanced b := by
  have hdropped := h.ofGoals_nonneg hs
  have hsum := hs.sum_le
  refine ⟨rfl, hs.outer, ?_, by simp [ParseState.fail]⟩
  simp only [Balance.ofState, ParseState.fail, Balance.ofGoals_nil] at hsum ⊢
  omega

theorem Balanced.step (hs : s.Balanced b) (hb : b.Sound) (h : s.step = some t) :
    t.Balanced b := by
  obtain hadvances | ⟨e, hstumbles, rfl⟩ := step_eq_some_iff.1 h
  · exact hs.advances hb hadvances
  · exact hs.fail hstumbles

theorem Balanced.reaches (hs : s.Balanced b) (hb : b.Sound) (h : s.Reaches t) :
    t.Balanced b := by
  induction h with
  | refl => exact hs
  | tail _ h ih => exact ih.step hb h

end ParseState

/-- In a sound balance the rules of a program come to no more than the rule of its end, and to
exactly that where it has no faults. -/
theorem ofRules_parseKinds {b : Balance} (hb : b.Sound) (w : List TokenKind) :
    b.ofRules (parseKinds w).rules ≤ b.ofRules [.programEnd] ∧
      ((parseKinds w).faults = [] → b.ofRules (parseKinds w).rules = b.ofRules [.programEnd]) := by
  obtain ⟨-, -, hle, heq⟩ :=
    (ParseState.balanced_start b w).reaches hb (ParseState.reaches_run { rest := w })
  obtain ⟨hg, ho, -⟩ := ParseState.run_eq_end { rest := w }
  rw [faults_parseKinds, List.reverse_eq_nil_iff, rules_parseKinds, Balance.ofRules_append,
    Balance.ofRules_reverse, Balance.ofRules_cons]
  simp only [Balance.ofState, hg, ho, Balance.ofGoals_nil, Balance.ofOuter] at hle heq
  refine ⟨by omega, fun hf => ?_⟩
  have hsum := heq hf
  omega

/-- Where the reversed balance is sound too, faults do not matter. -/
theorem ofRules_parseKinds_of_mem_evenBalances {b : Balance} (h : b ∈ Balance.evenBalances)
    (w : List TokenKind) : b.ofRules (parseKinds w).rules = b.ofRules [.programEnd] := by
  have hb : b.Sound := Balance.sound_of_mem (by simp [Balance.soundBalances, h])
  have hreverse : b.reverse.Sound := Balance.sound_of_mem (by
    simp only [Balance.soundBalances, List.mem_append]
    exact .inl (.inr (List.mem_map_of_mem h)))
  have hle := (ofRules_parseKinds hb w).1
  have hge := (ofRules_parseKinds hreverse w).1
  rw [Balance.ofRules_reversed, Balance.ofRules_reversed] at hge
  omega

/-! ## The balances of a trace -/

/-- The rules of a trace balance each other. -/
structure Trace.Balanced (t : Trace) : Prop where
  /-- Every statement that is complete is a member of a list, and no other member is one. -/
  statements : t.rules.count .ifThen + t.rules.count .whileDo + t.rules.count .declare
      + t.rules.count .declareInit + t.rules.count .simpleStatement
    = t.rules.count .programStatement + t.rules.count .bodyStatement
  functions : t.rules.count .function = t.rules.count .programFunction
  simples : t.rules.count .assign + t.rules.count .addAssign + t.rules.count .callStatement
      + t.rules.count .put + t.rules.count .get + t.rules.count .return
    = t.rules.count .simpleStatement + t.rules.count .ifThen
  primaries : t.rules.count .variable + t.rules.count .parenthesised + t.rules.count .call
      + t.rules.count .integer + t.rules.count .string
    = t.rules.count .not + t.rules.count .notOperand
  operands : t.rules.count .not + t.rules.count .notOperand
    = t.rules.count .add + t.rules.count .addOperand
  ends : t.rules.count .programEnd = 1
  sums : t.rules.count .equal + t.rules.count .equalOperand ≤ t.rules.count .addOperand
  /-- Every block with a closing brace has ended. -/
  blocks : t.rules.count .whileDo + t.rules.count .function ≤ t.rules.count .bodyEnd

/-- The acceptance of a program counts in no balance. -/
theorem ofRules_run {b : Balance} (h : b ∈ Balance.soundBalances) (ts : List Token) :
    b.ofRules (Parser.ofTokens ts).run.1.rules
      = b.ofRules (parseKinds (programKinds ts)).rules := by
  have haccept : ∀ b ∈ Balance.soundBalances, b.ofRules [.accept] = 0 := by decide
  rw [Parser.rules_run, Balance.ofRules_append]
  split <;> simp [haccept b h]

theorem ofRules_run_of_mem_evenBalances {b : Balance} (h : b ∈ Balance.evenBalances)
    (ts : List Token) :
    b.ofRules (Parser.ofTokens ts).run.1.rules = b.ofRules [.programEnd] := by
  have hsound : b ∈ Balance.soundBalances := by simp [Balance.soundBalances, h]
  rw [ofRules_run hsound, ofRules_parseKinds_of_mem_evenBalances h]

/-- The other balances may fall short, but only where something is reported. -/
theorem ofRules_run_le {b : Balance} (h : b = .sums ∨ b = .blocks) (ts : List Token) :
    b.ofRules (Parser.ofTokens ts).run.1.rules ≤ 0 ∧
      ((Parser.ofTokens ts).run.2.1 = [] → b.ofRules (Parser.ofTokens ts).run.1.rules = 0) := by
  have hsound : b ∈ Balance.soundBalances := by
    rw [Balance.soundBalances, List.mem_append]
    exact .inr (by simpa using h)
  have hend : b.ofRules [.programEnd] = 0 := by rcases h with rfl | rfl <;> decide
  obtain ⟨hle, heq⟩ := ofRules_parseKinds (Balance.sound_of_mem hsound) (programKinds ts)
  rw [ofRules_run hsound, ← hend]
  exact ⟨hle, fun hnone => heq ((Parser.diagnostics_run_eq_nil_iff ts).1 hnone)⟩

/-- The rules of every trace balance each other, and where nothing is reported, no operand and
no block is left over. -/
theorem balanced_run (ts : List Token) :
    (Parser.ofTokens ts).run.1.Balanced ∧
      ((Parser.ofTokens ts).run.2.1 = [] →
        (Parser.ofTokens ts).run.1.rules.count .equal
            + (Parser.ofTokens ts).run.1.rules.count .equalOperand
          = (Parser.ofTokens ts).run.1.rules.count .addOperand ∧
        (Parser.ofTokens ts).run.1.rules.count .whileDo
            + (Parser.ofTokens ts).run.1.rules.count .function
          = (Parser.ofTokens ts).run.1.rules.count .bodyEnd) := by
  have heven : ∀ b ∈ Balance.evenBalances, b.ofRules [.programEnd] = 0 →
      b.Even (Parser.ofTokens ts).run.1.rules := fun b hb hend =>
    Balance.ofRules_eq_zero_iff.1 ((ofRules_run_of_mem_evenBalances hb ts).trans hend)
  have hends := ofRules_run_of_mem_evenBalances (b := .ends) (by simp [Balance.evenBalances]) ts
  simp only [Balance.evenBalances, List.forall_mem_cons] at heven
  obtain ⟨hstatements, hfunctions, hsimples, hprimaries, hoperands, -⟩ := heven
  obtain ⟨hsums, hsumsEven⟩ := ofRules_run_le (.inl rfl) ts
  obtain ⟨hblocks, hblocksEven⟩ := ofRules_run_le (.inr rfl) ts
  refine ⟨⟨?statements, ?functions, ?simples, ?primaries, ?operands, ?ends, ?sums, ?blocks⟩,
    fun hnone => ⟨?sumsEven, ?blocksEven⟩⟩
  case statements =>
    simpa [Balance.Even, Balance.statements, Nat.add_assoc] using hstatements (by decide)
  case functions => simpa [Balance.Even, Balance.functions] using hfunctions (by decide)
  case simples =>
    simpa [Balance.Even, Balance.simples, Nat.add_assoc] using hsimples (by decide)
  case primaries =>
    simpa [Balance.Even, Balance.primaries, Nat.add_assoc] using hprimaries (by decide)
  case operands => simpa [Balance.Even, Balance.operands] using hoperands (by decide)
  case ends =>
    have hone : ((Parser.ofTokens ts).run.1.rules.count .programEnd : Int) = 1 := by
      simpa [Balance.ofRules, Balance.ends] using hends
    omega
  case sums => simpa [Balance.sums] using Balance.ofRules_nonpos_iff.1 hsums
  case blocks => simpa [Balance.blocks] using Balance.ofRules_nonpos_iff.1 hblocks
  case sumsEven =>
    simpa [Balance.Even, Balance.sums] using Balance.ofRules_eq_zero_iff.1 (hsumsEven hnone)
  case blocksEven =>
    simpa [Balance.Even, Balance.blocks] using Balance.ofRules_eq_zero_iff.1 (hblocksEven hnone)

/-- A loop with a call in it has one body, and it has as many operands of comparisons as it has
expressions. -/
theorem balanced_loopWithCall :
    (Parser.ofTokens loopWithCall).run.2.1 = [] ∧
      (Parser.ofTokens loopWithCall).run.1.rules.count .equal
          + (Parser.ofTokens loopWithCall).run.1.rules.count .equalOperand
        = (Parser.ofTokens loopWithCall).run.1.rules.count .addOperand ∧
      (Parser.ofTokens loopWithCall).run.1.rules.count .whileDo
          + (Parser.ofTokens loopWithCall).run.1.rules.count .function
        = (Parser.ofTokens loopWithCall).run.1.rules.count .bodyEnd := by
  have hnone : (Parser.ofTokens loopWithCall).run.2.1 = [] :=
    (Parser.diagnostics_run_eq_nil_iff loopWithCall).2
      (faults_parseKinds_of_runFor 80 [] (by decide) (by decide))
  exact ⟨hnone, (balanced_run loopWithCall).2 hnone⟩

end Pdl
