import Pdl.Proofs.Parsing.Plans
import Pdl.Proofs.Parsing.Trace

/-!
# What a run gives, and what it has read

The rules and the faults of a run are paid for by the kinds that it reads.

A member of a list begins with a kind of its own.  It comes to an end, and then
a rule adds it to its list, or it meets a fault and is given up.  A kind with
which no member begins is a fault and is skipped.  So the members and the faults
together are no more than the kinds read; `ParseState.claims` counts them, with
the members that have begun and the members that wait to be recorded.

Each kind that is read pays for four rules.  `Goal.cost` is how many rules are
due for a goal beyond those that the kinds read on its way pay for.  Where a kind
has to be read for a goal next, not all of the four rules are its own, and
`Goal.credit` are those that it leaves to the goals behind it.  They count for
the first goal only (`debt`), since a fault drops the goals that wait for it.

No step makes the sum of what it gives and what it still may read larger
(`Accounted.step`, `potential_step_le`).  In the end there is nothing left to
read, and the two sums are what the run has given.
-/

namespace Pdl

/-! ## Members and faults -/

/-- Whether the rule adds a member to a list. -/
def Rule.addsMember : Rule → Bool
  | programStatement | programFunction | bodyStatement => true
  | _ => false

/-- Whether the goal records a member of a list. -/
def Goal.settles : Goal → Bool
  | .tally _ => true
  | .reduce r => r.addsMember
  | _ => false

/-- The goals end in that of a member of a list. -/
def EndsMember (gs : List Goal) : Prop := ∃ hs r, gs = hs ++ [.tally r]

namespace EndsMember

variable {g : Goal} {gs : List Goal}

theorem append (h : EndsMember gs) (goals : List Goal) : EndsMember (goals ++ gs) := by
  obtain ⟨hs, r, rfl⟩ := h
  exact ⟨goals ++ hs, r, (List.append_assoc _ _ _).symm⟩

theorem tail (h : EndsMember (g :: gs)) : gs = [] ∧ g.isTally = true ∨ EndsMember gs := by
  obtain ⟨hs, r, h⟩ := h
  cases hs with
  | nil =>
    cases h
    exact .inl ⟨rfl, rfl⟩
  | cons g' hs =>
    obtain ⟨-, rfl⟩ := List.cons_eq_cons.1 h
    exact .inr ⟨hs, r, rfl⟩

/-- Goals behind one that is not that of a member. -/
theorem tail_of_not_isTally (h : EndsMember (g :: gs)) (hg : g.isTally = false) :
    EndsMember gs := by
  obtain ⟨-, hg'⟩ | h := h.tail
  · rw [hg] at hg'
    cases hg'
  · exact h

theorem countP_pos (h : EndsMember gs) : 0 < gs.countP Goal.settles := by
  obtain ⟨hs, r, rfl⟩ := h
  rw [List.countP_pos_iff]
  exact ⟨.tally r, by simp, rfl⟩

end EndsMember

theorem countP_settles_reduceTimes {r : Rule} (hr : r.addsMember = false) (n : Nat) :
    (reduceTimes n r).countP Goal.settles = 0 := by
  simp [reduceTimes, List.countP_replicate, Goal.settles, hr]

/-- Goals of parts of a statement record no member. -/
theorem countP_settles_of_readings {g : Goal} {p : TokenKind × List Goal}
    (h : p ∈ g.readings) : p.2.countP Goal.settles = 0 := by
  have hall : ∀ p ∈ g.readings, p.2.countP Goal.settles = 0 := by
    cases g <;> simp [Goal.readings, simpleReadings, typeReadings, typeKinds, Goal.settles,
      Rule.addsMember]
  exact hall p h

theorem countP_settles_of_expansions {g : Goal} {goals : List Goal} (h : goals ∈ g.expansions) :
    goals.countP Goal.settles = 0 := by
  have hall : ∀ goals ∈ g.expansions, goals.countP Goal.settles = 0 := by
    cases g with
    | moreParameters n | moreArguments n =>
      intro goals hgoals
      rw [Goal.expansions, List.mem_singleton] at hgoals
      rw [hgoals, List.countP_append, List.countP_cons, countP_settles_reduceTimes rfl]
      rfl
    | _ => simp [Goal.expansions, Goal.settles, Rule.addsMember]
  exact hall goals h

/-- The goals of a member record one. -/
theorem memberReadings_settles {inBlock : Bool} {p : TokenKind × List Goal}
    (h : p ∈ memberReadings inBlock) : EndsMember p.2 ∧ p.2.countP Goal.settles = 1 := by
  have hstatement : ∀ p ∈ statementReadings, p.2.countP Goal.settles = 0 := by decide
  cases inBlock with
  | true =>
    obtain ⟨q, hq, rfl⟩ := List.mem_map.1 h
    refine ⟨⟨q.2, _, rfl⟩, ?_⟩
    rw [List.countP_append, hstatement q hq]
    rfl
  | false =>
    obtain rfl | h := List.mem_cons.1 h
    · exact ⟨⟨functionGoals, _, rfl⟩, by decide⟩
    · obtain ⟨q, hq, rfl⟩ := List.mem_map.1 h
      refine ⟨⟨q.2, _, rfl⟩, ?_⟩
      rw [List.countP_append, hstatement q hq]
      rfl

namespace ParseState

/-- The members of the lists around the innermost one. -/
def outerClaims : List Enclosing → Nat
  | [] => 0
  | e :: outer => e.members.length + e.goals.countP Goal.settles + outerClaims outer

/-- What has taken a kind for itself: the faults, and the members of lists. -/
def claims (s : ParseState) : Nat :=
  s.faults.length + s.rules.countP Rule.addsMember + s.goals.countP Goal.settles
    + s.members.length + outerClaims s.outer

/-- The state has a kind for each of its claims, if `n` kinds stood in front of it in the
beginning. -/
structure Accounted (n : Nat) (s : ParseState) : Prop where
  goals : s.goals = [] ∨ EndsMember s.goals
  outer : ∀ e ∈ s.outer, EndsMember e.goals
  claims_le : s.claims + s.rest.length ≤ n

variable {s t : ParseState} {n : Nat}

theorem accounted_start (w : List TokenKind) : Accounted w.length { rest := w } where
  goals := .inl rfl
  outer := by simp
  claims_le := Nat.le_of_eq (Nat.zero_add _)

theorem Accounted.endsMember {g : Goal} {gs : List Goal} (h : s.Accounted n)
    (hg : s.goals = g :: gs) : EndsMember (g :: gs) := by
  obtain hnil | hends := h.goals
  · rw [hnil] at hg
    cases hg
  · rwa [hg] at hends

/-- A member that begins takes the kind that is read, and then every member stays what it is
until it is recorded. -/
theorem Accounted.advances (hs : s.Accounted n) (h : s.Advances t) : t.Accounted n := by
  have hclaims := hs.claims_le
  cases h with
  | @begin k ks goals hg hr hb hm =>
    obtain ⟨hends, hcount⟩ := memberReadings_settles (mem_memberReadings hm)
    refine ⟨.inr hends, hs.outer, ?_⟩
    simp only [claims, hg, hr, List.length_cons, List.countP_nil] at hclaims hcount ⊢
    omega
  | @leave e outer hg ho hr =>
    have hmember : ∀ f ∈ outer, EndsMember f.goals := fun f hf => hs.outer f (by
      rw [ho]
      exact .tail _ hf)
    have hends : EndsMember e.goals := hs.outer e (by
      rw [ho]
      exact .head _)
    have hsettles : (s.members.map Goal.reduce).countP Goal.settles ≤ s.members.length := by
      have := List.countP_le_length (p := Goal.settles) (l := s.members.map Goal.reduce)
      rwa [List.length_map] at this
    refine ⟨.inr (hends.append (.reduce .bodyEnd :: s.members.map .reduce)), hmember, ?_⟩
    have hfirst : Goal.settles (.reduce .bodyEnd) = false := rfl
    simp only [claims, leave, outerClaims, hg, ho, List.cons_append, List.countP_append,
      List.countP_cons, List.countP_nil, hfirst] at hclaims ⊢
    simp only [Bool.false_eq_true, if_false] at hclaims ⊢
    omega
  | @shift g gs goals k ks hg hr hp =>
    have hmem := mem_readings_of_plan hp
    have hends := (hs.endsMember hg).tail_of_not_isTally (isTally_of_readings hmem)
    have hcount := countP_settles_of_readings hmem
    refine ⟨.inr (hends.append goals), hs.outer, ?_⟩
    simp only [claims, hg, hr, List.length_cons, List.countP_append, List.countP_cons]
      at hclaims hcount ⊢
    omega
  | @expand g gs goals hg hp =>
    have hmem := mem_expansions_of_plan hp
    have hends := (hs.endsMember hg).tail_of_not_isTally (isTally_of_expansions hmem)
    have hcount := countP_settles_of_expansions hmem
    refine ⟨.inr (hends.append goals), hs.outer, ?_⟩
    simp only [claims, hg, List.countP_append, List.countP_cons] at hclaims hcount ⊢
    omega
  | @complete r gs hg =>
    have hends := (hs.endsMember hg).tail_of_not_isTally rfl
    refine ⟨.inr hends, hs.outer, ?_⟩
    have hr : Goal.settles (.reduce r) = r.addsMember := rfl
    simp only [claims, hg, List.countP_cons, hr] at hclaims ⊢
    omega
  | @count r gs hg =>
    refine ⟨?_, hs.outer, ?_⟩
    · exact (hs.endsMember hg).tail.imp And.left id
    · have hr : Goal.settles (.tally r) = true := rfl
      simp only [claims, hg, List.countP_cons, hr, List.length_cons, if_true] at hclaims ⊢
      omega
  | @enter gs hg =>
    have hends := (hs.endsMember hg).tail_of_not_isTally rfl
    refine ⟨.inl rfl, ?_, ?_⟩
    · intro e he
      obtain rfl | he := List.mem_cons.1 he
      · exact hends
      · exact hs.outer e he
    · simp only [claims, outerClaims, hg, List.countP_cons, List.countP_nil, List.length_nil]
        at hclaims ⊢
      omega

/-- A fault takes the kind of the member that it drops, or the one that it skips. -/
theorem Accounted.fail {e : Expected} (hs : s.Accounted n) (h : s.Stumbles e) :
    (s.fail e).Accounted n := by
  have hclaims := hs.claims_le
  refine ⟨.inl rfl, hs.outer, ?_⟩
  simp only [claims, ParseState.fail, List.countP_nil, List.length_cons] at hclaims ⊢
  cases h with
  | @between k ks hg hr hb hm =>
    have hskip := length_recover_lt ks hm hb
    rw [← hr] at hskip
    omega
  | goal hg hp =>
    have hdrop := (hs.endsMember hg).countP_pos
    have hle := length_recover_le s.inBlock s.rest
    rw [hg] at hclaims
    omega

theorem Accounted.step (hs : s.Accounted n) (h : s.step = some t) : t.Accounted n := by
  obtain hadvances | ⟨e, hstumbles, rfl⟩ := step_eq_some_iff.1 h
  · exact hs.advances hadvances
  · exact hs.fail hstumbles

theorem Accounted.reaches (hs : s.Accounted n) (h : s.Reaches t) : t.Accounted n := by
  induction h with
  | refl => exact hs
  | tail _ h ih => exact ih.step h

end ParseState

/-! ## Rules -/

/-- How many rules are due for a goal, beyond those that the kinds read for it pay for. -/
def Goal.cost : Goal → Nat
  | .reduce _ | .tally _ | .block | .afterType | .returned => 1
  | .arguments => 2
  | .moreParameters n | .moreArguments n => n + 2
  | _ => 0

/-- What the kind that has to be read next for a goal pays for besides. -/
def Goal.credit : Goal → Nat
  | .token _ => 4
  | .primary => 3
  | .operand => 2
  | .sum => 1
  | _ => 0

/-- How many rules are due for a list of goals that waits. -/
def totalCost : List Goal → Nat
  | [] => 0
  | g :: gs => g.cost + totalCost gs

/-- How many rules are due for a list of goals, if the first one comes next. -/
def debt : List Goal → Nat
  | [] => 0
  | g :: gs => g.cost + totalCost gs - g.credit

@[simp] theorem totalCost_nil : totalCost [] = 0 := rfl

@[simp] theorem totalCost_cons (g : Goal) (gs : List Goal) :
    totalCost (g :: gs) = g.cost + totalCost gs := rfl

@[simp] theorem debt_nil : debt [] = 0 := rfl

@[simp] theorem debt_cons (g : Goal) (gs : List Goal) :
    debt (g :: gs) = g.cost + totalCost gs - g.credit := rfl

@[simp] theorem totalCost_append (gs hs : List Goal) :
    totalCost (gs ++ hs) = totalCost gs + totalCost hs := by
  induction gs with
  | nil => simp
  | cons g gs ih => simp [ih, Nat.add_assoc]

@[simp] theorem totalCost_map_reduce (rs : List Rule) :
    totalCost (rs.map .reduce) = rs.length := by
  induction rs with
  | nil => rfl
  | cons r rs ih => simp [ih, Goal.cost, Nat.add_comm]

@[simp] theorem totalCost_reduceTimes (n : Nat) (r : Rule) :
    totalCost (reduceTimes n r) = n := by
  have hmap : reduceTimes n r = (List.replicate n r).map .reduce := by simp [reduceTimes]
  rw [hmap, totalCost_map_reduce, List.length_replicate]

theorem debt_le (gs : List Goal) : debt gs ≤ totalCost gs := by
  cases gs with
  | nil => exact Nat.le_refl 0
  | cons g gs => exact Nat.sub_le _ _

/-- A kind that is read pays for four rules. -/
theorem debt_of_readings {g : Goal} {p : TokenKind × List Goal} (h : p ∈ g.readings)
    (gs : List Goal) : debt (p.2 ++ gs) ≤ debt (g :: gs) + 4 := by
  have hgs := debt_le gs
  have hall : ∀ p ∈ g.readings, debt (p.2 ++ gs) ≤ debt (g :: gs) + 4 := by
    cases g <;> simp [Goal.readings, simpleReadings, typeReadings, typeKinds, Goal.cost,
      Goal.credit] <;> omega
  exact hall p h

/-- The goals that take the place of a goal cost no more. -/
theorem debt_of_expansions {g : Goal} {goals : List Goal} (h : goals ∈ g.expansions)
    (gs : List Goal) : debt (goals ++ gs) ≤ debt (g :: gs) := by
  have hgs := debt_le gs
  have hall : ∀ goals ∈ g.expansions, debt (goals ++ gs) ≤ debt (g :: gs) := by
    cases g <;> simp [Goal.expansions, Goal.cost, Goal.credit] <;> omega
  exact hall goals h

/-- The first kind of a member pays for the rules that are due for it. -/
theorem debt_of_memberReadings {inBlock : Bool} {p : TokenKind × List Goal}
    (h : p ∈ memberReadings inBlock) : debt p.2 ≤ 4 := by
  have hall : ∀ b, ∀ p ∈ memberReadings b, debt p.2 ≤ 4 := by decide
  exact hall inBlock p h

namespace ParseState

/-- How many rules are due for the lists around the innermost one.  The inner list of each
has an end to be recorded. -/
def outerDebt : List Enclosing → Nat
  | [] => 0
  | e :: outer => e.members.length + totalCost e.goals + 1 + outerDebt outer

/-- The rules recorded, those that are due, and those that the kinds left pay for. -/
def potential (s : ParseState) : Nat :=
  s.rules.length + debt s.goals + s.members.length + outerDebt s.outer + 4 * s.rest.length

variable {s t : ParseState}

theorem Advances.potential_le (h : s.Advances t) : t.potential ≤ s.potential := by
  cases h with
  | begin hg hr hb hm =>
    have hdebt := debt_of_memberReadings (mem_memberReadings hm)
    simp only [potential, hg, hr, List.length_cons, debt_nil] at hdebt ⊢
    omega
  | leave hg ho hr =>
    simp [potential, ParseState.leave, outerDebt, hg, ho, Goal.cost, Goal.credit]
    omega
  | @shift g gs goals k ks hg hr hp =>
    have hdebt := debt_of_readings (mem_readings_of_plan hp) gs
    simp only [potential, hg, hr, List.length_cons] at hdebt ⊢
    omega
  | @expand g gs goals hg hp =>
    have hdebt := debt_of_expansions (mem_expansions_of_plan hp) gs
    simp only [potential, hg]
    omega
  | @complete r gs hg | @count r gs hg =>
    have hdebt := debt_le gs
    simp only [potential, hg, debt_cons, Goal.cost, Goal.credit, List.length_cons]
    omega
  | @enter gs hg =>
    simp only [potential, outerDebt, hg, debt_cons, debt_nil, Goal.cost, Goal.credit,
      List.length_nil]
    omega

/-- A fault drops the goals of its statement, and no kind is put back. -/
theorem potential_fail_le (s : ParseState) (e : Expected) :
    (s.fail e).potential ≤ s.potential := by
  have hle := length_recover_le s.inBlock s.rest
  simp only [potential, ParseState.fail, debt_nil]
  omega

theorem potential_step_le (h : s.step = some t) : t.potential ≤ s.potential := by
  obtain hadvances | ⟨e, -, rfl⟩ := step_eq_some_iff.1 h
  · exact hadvances.potential_le
  · exact potential_fail_le s e

theorem Reaches.potential_le (h : s.Reaches t) : t.potential ≤ s.potential := by
  induction h with
  | refl => exact Nat.le_refl _
  | tail _ h ih => exact Nat.le_trans (potential_step_le h) ih

/-! ## The end of a run -/

end ParseState

theorem length_rules_parseKinds_le (w : List TokenKind) :
    (parseKinds w).rules.length ≤ 4 * w.length + 1 := by
  have hle := (ParseState.reaches_run { rest := w }).potential_le
  rw [rules_parseKinds]
  simp only [ParseState.potential, List.length_append, List.length_cons, List.length_reverse,
    List.length_nil, debt_nil, ParseState.outerDebt] at hle ⊢
  omega

/-- The faults and the rules of members are no more than the kinds. -/
theorem length_faults_parseKinds_le (w : List TokenKind) :
    (parseKinds w).faults.length + (parseKinds w).rules.countP Rule.addsMember ≤ w.length := by
  have haccounted := (ParseState.accounted_start w).reaches (ParseState.reaches_run { rest := w })
  have hle := haccounted.claims_le
  have hmembers := List.countP_le_length (p := Rule.addsMember)
    (l := (ParseState.run { rest := w }).members)
  have hend : Rule.addsMember .programEnd = false := rfl
  rw [rules_parseKinds, faults_parseKinds]
  simp only [ParseState.claims, List.length_reverse, List.countP_append, List.countP_reverse,
    List.countP_cons, hend] at hle ⊢
  simp only [Bool.false_eq_true, if_false]
  omega

theorem countP_addsMember (rs : List Rule) :
    rs.countP Rule.addsMember =
      rs.count .programStatement + rs.count .programFunction + rs.count .bodyStatement := by
  induction rs with
  | nil => rfl
  | cons r rs ih =>
    rw [List.countP_cons, ih]
    cases r <;> simp [Rule.addsMember] <;> omega

/-- A run comes to an end, and there the parser has read the whole program and stands in front
of its end.  Faults and members of lists together are no more than the tokens of the program,
and the trace has at most four rules for each of them, and two more. -/
theorem length_run_le (ts : List Token) :
    (∃ d, Descent.Reaches { parser := Parser.ofTokens ts } d ∧ d.step = none ∧
      d.parser.unread = [] ∧ d.parser.position = (programTokens ts).length ∧
      (Parser.ofTokens ts).run.1.rules = d.parser.rules.reverse ++ .programEnd :: d.members ++
        (if (Parser.ofTokens ts).run.1.accepted then [.accept] else [])) ∧
    (Parser.ofTokens ts).run.2.2.unread = [] ∧
    (Parser.ofTokens ts).run.2.2.position = (programTokens ts).length ∧
    (Parser.ofTokens ts).run.2.2.errors
        + ((Parser.ofTokens ts).run.1.rules.count .programStatement
          + (Parser.ofTokens ts).run.1.rules.count .programFunction
          + (Parser.ofTokens ts).run.1.rules.count .bodyStatement) ≤ (programTokens ts).length ∧
    (Parser.ofTokens ts).run.2.1.length ≤ (programTokens ts).length ∧
    (Parser.ofTokens ts).run.1.rules.length ≤ 4 * (programTokens ts).length + 2 := by
  have hlength : (programKinds ts).length = (programTokens ts).length := List.length_map _
  have hfaults := length_faults_parseKinds_le (programKinds ts)
  have hrules := length_rules_parseKinds_le (programKinds ts)
  have hdiagnostics : (Parser.ofTokens ts).run.2.1.length
      = (parseKinds (programKinds ts)).faults.length := by
    rw [Parser.run_eq, Parser.diagnostics_ofTokens, List.length_map]
  have herrors : (Parser.ofTokens ts).run.2.2.errors
      = (parseKinds (programKinds ts)).faults.length := Parser.errors_after ts
  have hunread : (Parser.ofTokens ts).run.2.2.unread = [] := Parser.unread_after _
  have hposition : (Parser.ofTokens ts).run.2.2.position = (programTokens ts).length := by
    rw [Parser.run_eq, Parser.after_eq]
    exact Nat.zero_add _
  refine ⟨⟨Descent.run { parser := Parser.ofTokens ts }, Descent.reaches_run _,
    Descent.step_run _, hunread, hposition, rfl⟩, hunread, hposition, ?_, ?_, ?_⟩
  · have haccept : (if (Parser.ofTokens ts).run.1.accepted then [Rule.accept] else []).countP
        Rule.addsMember = 0 := by
      split <;> rfl
    rw [herrors, ← countP_addsMember, Parser.rules_run, List.countP_append, haccept]
    omega
  · omega
  · have haccept : (if (Parser.ofTokens ts).run.1.accepted then [Rule.accept] else []).length
        ≤ 1 := by
      split <;> simp
    rw [Parser.rules_run, List.length_append]
    omega

end Pdl
