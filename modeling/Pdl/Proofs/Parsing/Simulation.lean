import Mathlib.Data.Option.Defs
import Pdl.Proofs.Parsing.Plans
import Pdl.Proofs.Parsing.Steps
import Pdl.Proofs.Parsing.Streams

/-!
# The parser and its kinds

A run of the parser and the run over the kinds of its tokens keep step with each other
(`Follows.step`).  They are at the same goals and in the same lists, and the kinds that
are left for the one are those of the tokens that are left for the other.  The log, the
count of faults and the completed rules of the parser grow as the faults and the rules of
the state do (`Parser.resume`).

Three things need care.  At the end the parser still looks at the token behind it, but no
goal asks for the end, so that no plan depends on what it sees (`Goal.plan_end`).  In front
of the end the kind of the next token but one is that of the end, be there one or not
(`Goal.plan_two`).  And the token more that is skipped where a fault has moved nothing
never is, as a statement that has goals has read a token (`Follows.begun`).

So what a run gives can be read off the kinds (`Parser.trace_eq`, `Parser.after_eq`,
`Parser.diagnostics_eq`).
-/

namespace Pdl

/-! ## Plans -/

/-- A plan looks at two kinds, and takes the end for a second one that is missing. -/
theorem Goal.plan_two (g : Goal) (k : TokenKind) (ks : List TokenKind) :
    g.plan [k, ks.head?.getD .endOfInput] = g.plan (k :: ks) := by
  cases g with
  | primary =>
    cases k with
    | identifier =>
      cases ks with
      | nil => rfl
      | cons k' ks =>
        cases k' with
        | punctuation m => cases m <;> rfl
        | _ => rfl
    | punctuation m => cases m <;> rfl
    | _ => rfl
  | _ => rfl

/-- What stands behind the end does not matter to a goal that does not ask for the end. -/
theorem Goal.plan_end {g : Goal} (hg : g ≠ .token .endOfInput) (k : TokenKind) :
    g.plan [.endOfInput, k] = g.plan [] := by
  cases g with
  | token k' =>
    have hne : some TokenKind.endOfInput ≠ some k' := by
      rintro ⟨rfl⟩
      exact hg rfl
    simp [plan, hne]
  | _ => simp [plan, simpleGoals?, typeRule?]

/-! ## Goals that ask for the end -/

theorem not_mem_of_mem_readings {g : Goal} {q : TokenKind × List Goal} (h : q ∈ g.readings) :
    .token .endOfInput ∉ q.2 := by
  have hall : ∀ q ∈ g.readings, .token .endOfInput ∉ q.2 := by
    cases g with
    | token | moreParameters | moreArguments => simp [Goal.readings]
    | reduce | tally => simp [Goal.readings]
    | _ => decide
  exact hall q h

theorem not_mem_of_mem_expansions {g : Goal} {goals : List Goal} (h : goals ∈ g.expansions) :
    .token .endOfInput ∉ goals := by
  have hall : ∀ goals ∈ g.expansions, .token .endOfInput ∉ goals := by
    cases g with
    | moreParameters | moreArguments => simp [Goal.expansions, reduceTimes]
    | token | reduce | tally => simp [Goal.expansions]
    | _ => decide
  exact hall goals h

theorem not_mem_of_memberGoals? {inBlock : Bool} {k : TokenKind} {goals : List Goal}
    (h : memberGoals? inBlock k = some goals) : .token .endOfInput ∉ goals := by
  have hall : ∀ q ∈ memberReadings inBlock, .token .endOfInput ∉ q.2 := by
    cases inBlock <;> decide
  exact hall _ (mem_memberReadings h)

/-! ## The parser in the middle of a run -/

namespace Parser

/-- The parser `p` when its run has read the tokens `done`, completed the `rules` and met the
`faults`, both with the latest first. -/
def resume (p : Parser) (done : List Token) (rules : List Rule) (faults : List SyntaxFault) :
    Parser :=
  { p with
    position := p.position + done.length
    log := p.log ++ faults.reverse.map fun f => f.diagnostic (p.tokenOf f)
    errors := p.errors + faults.length
    rules := rules ++ p.rules }

/-- The parser `q` is `p` when its run has completed the `rules` and met the `faults`, and the
kinds `rest` are left. -/
structure Stands (p : Parser) (rest : List TokenKind) (rules : List Rule)
    (faults : List SyntaxFault) (q : Parser) : Prop where
  rest_eq : rest = q.kinds
  exists_done : ∃ done, p.unread = done ++ q.unread ∧ q = p.resume done rules faults

variable {p q r : Parser} {rest ks : List TokenKind} {rules : List Rule}
  {faults : List SyntaxFault} {more : List Token}

theorem stands_start (p : Parser) : p.Stands (p.kinds) [] [] p :=
  ⟨rfl, [], rfl, by simp [resume]⟩

theorem plan_eq {g : Goal} (hg : g ≠ .token .endOfInput) (p : Parser) :
    g.plan [p.current.kind, p.peekKind] = g.plan (p.kinds) := by
  cases h : p.unread with
  | nil =>
    have hkind : p.current.kind = .endOfInput := by
      rw [current_eq, h]
      exact p.kind_endAhead
    rw [hkind, kinds_of_unread_eq h, Goal.plan_end hg]
    rfl
  | cons t ts =>
    rw [current_of_unread_cons h, peekKind_of_unread_cons h, kinds_of_unread_eq h, List.map_cons,
      ← List.head?_map, Goal.plan_two]

namespace Stands

/-- The next token is the one at which a fault lies here. -/
theorem tokenOf_eq (h : p.Stands rest rules faults q) (e : Expected) :
    p.tokenOf ⟨e, rest.length⟩ = q.current := by
  obtain ⟨hrest, done, hdone, hq⟩ := h
  have hend : q.endAhead = p.endAhead := by
    rw [hq]
    exact (reads_of_unread_eq hdone).1.endAhead_eq
  have hindex : p.unread.length - rest.length = done.length := by
    rw [hrest, length_kinds, hdone, List.length_append]
    omega
  rw [tokenOf, hindex, hdone, List.getD_eq_getElem?_getD,
    List.getElem?_append_right (Nat.le_refl _), Nat.sub_self, ← List.head?_eq_getElem?,
    current_eq, hend]

/-- Tokens are read. -/
theorem read (h : p.Stands rest rules faults q) (hreads : q.Reads more r)
    (hks : ks = r.kinds) : p.Stands ks rules faults r := by
  obtain ⟨-, done, hdone, hq⟩ := h
  refine ⟨hks, done ++ more, by rw [hdone, hreads.unread_eq, List.append_assoc], ?_⟩
  rw [hreads.eq, hq]
  simp only [resume, List.length_append, Nat.add_assoc]

/-- A fault is reported. -/
theorem report (h : p.Stands rest rules faults q) (e : Expected) :
    p.Stands rest rules (⟨e, rest.length⟩ :: faults) (q.report e) := by
  have htoken := h.tokenOf_eq e
  obtain ⟨hrest, done, hdone, hq⟩ := h
  refine ⟨hrest, done, hdone, ?_⟩
  rw [Parser.report, ← htoken]
  subst hq
  simp [resume, SyntaxFault.diagnostic, Nat.add_assoc]

/-- A rule is completed. -/
theorem record (h : p.Stands rest rules faults q) (r : Rule) :
    p.Stands rest (r :: rules) faults (q.record r) := by
  obtain ⟨hrest, done, hdone, hq⟩ := h
  refine ⟨hrest, done, hdone, ?_⟩
  rw [hq]
  rfl

end Stands

end Parser

/-! ## Descents -/

namespace Descent

/-- Any number of steps. -/
abbrev Reaches : Descent → Descent → Prop := Relation.ReflTransGen fun c d => c.step = some d

theorem step_run (d : Descent) : d.run.step = none := by
  fun_induction run d with
  | case1 d h => exact h
  | case2 d c h ih => exact ih

theorem reaches_run (d : Descent) : d.Reaches d.run := by
  fun_induction run d with
  | case1 d h => exact .refl
  | case2 d c h ih => exact .head h ih

end Descent

/-- The descent `d` of a run of `p` keeps step with the state `s`. -/
structure Follows (p : Parser) (d : Descent) (s : ParseState) : Prop where
  goals_eq : d.goals = s.goals
  members_eq : d.members = s.members
  outer_eq : d.outer.map Suspended.toEnclosing = s.outer
  stands : p.Stands s.rest s.rules s.faults d.parser
  asks : .token .endOfInput ∉ d.goals
  /-- The present statement has read a token. -/
  begun : d.goals ≠ [] → d.start < d.parser.position
  /-- So have the statements around it. -/
  outer : ∀ e ∈ d.outer, .token .endOfInput ∉ e.goals ∧ e.start < d.parser.position

namespace Follows

variable {p : Parser} {d : Descent} {s : ParseState} {t : Token} {ts : List Token}

theorem start (p : Parser) : Follows p { parser := p } { rest := p.kinds } :=
  ⟨rfl, rfl, rfl, p.stands_start, List.not_mem_nil, fun h => absurd rfl h, nofun⟩

theorem inBlock_eq (h : Follows p d s) : d.inBlock = s.inBlock := by
  rw [Descent.inBlock, ParseState.inBlock, ← h.outer_eq, List.isEmpty_map]

theorem rest_of_unread_eq (h : Follows p d s) (hunread : d.parser.unread = ts) :
    s.rest = ts.map (·.kind) := by
  rw [h.stands.rest_eq, Parser.kinds_of_unread_eq hunread]

/-- A statement is given up.  The place found by skipping is not that where it began. -/
theorem fail (h : Follows p d s) (e : Expected)
    (hmoved : ((d.parser.report e).skip d.inBlock).position ≠ d.start) :
    Follows p (d.fail e) (s.fail e) := by
  obtain ⟨more, hreads, hkinds⟩ := (d.parser.report e).exists_reads_skip d.inBlock
  have hparser : (d.fail e).parser = (d.parser.report e).skip d.inBlock := by
    rw [Descent.fail, if_neg hmoved]
  have hposition : d.parser.position ≤ (d.fail e).parser.position := by
    rw [hparser, hreads.eq]
    exact Nat.le_add_right ..
  refine ⟨rfl, h.members_eq, h.outer_eq, ?_, List.not_mem_nil, fun hg => absurd rfl hg, ?_⟩
  · rw [hparser]
    refine (h.stands.report e).read hreads ?_
    rw [hkinds, h.inBlock_eq, ParseState.fail, h.stands.rest_eq]
    rfl
  · intro e' he'
    exact ⟨(h.outer e' he').1, Nat.lt_of_lt_of_le (h.outer e' he').2 hposition⟩

/-- A member of the innermost list begins, or no statement begins here. -/
theorem begin (h : Follows p d s) (hg : d.goals = []) (hunread : d.parser.unread = t :: ts)
    (hb : d.inBlock = true → endsBlock t.kind = false) :
    Follows p d.begin (s.begin t.kind (ts.map (·.kind))) := by
  obtain ⟨hreads, hts⟩ := Parser.reads_advance hunread
  have hstart : Follows p { d with start := d.parser.position } s :=
    ⟨h.goals_eq, h.members_eq, h.outer_eq, h.stands, h.asks, fun hne => absurd hg hne, h.outer⟩
  rw [Descent.begin, ParseState.begin]
  simp only [Parser.current_of_unread_cons hunread]
  rw [show Descent.inBlock { d with start := d.parser.position } = s.inBlock from h.inBlock_eq]
  cases hmember : memberGoals? s.inBlock t.kind with
  | some goals =>
    dsimp only
    have hposition : d.parser.advance.position = d.parser.position + 1 := by rw [hreads.eq]; rfl
    refine ⟨rfl, h.members_eq, h.outer_eq, h.stands.read hreads (Parser.kinds_of_unread_eq hts).symm,
      not_mem_of_memberGoals? hmember, fun _ => ?_, fun e he => ⟨(h.outer e he).1, ?_⟩⟩
    · rw [hposition]
      exact Nat.lt_succ_self _
    · rw [hposition]
      exact Nat.lt_succ_of_lt (h.outer e he).2
  | none =>
    refine hstart.fail .statement ?_
    have hmoved := Parser.position_lt_skip (p := d.parser.report .statement) hunread hmember
      (h.inBlock_eq ▸ hb)
    rw [← h.inBlock_eq] at hmoved
    exact Nat.ne_of_gt hmoved

/-- The innermost list ends. -/
theorem leave {e : Suspended} {outer : List Suspended} (h : Follows p d s)
    (ho : d.outer = e :: outer) :
    Follows p (d.leave e outer) (s.leave e.toEnclosing (outer.map Suspended.toEnclosing)) := by
  obtain ⟨hasks, hbegun⟩ := h.outer e (ho ▸ List.mem_cons_self)
  refine ⟨?_, rfl, rfl, h.stands, ?_, fun _ => hbegun, fun e' he' => ?_⟩
  · rw [Descent.leave, ParseState.leave, h.members_eq]
  · simpa [Descent.leave] using hasks
  · exact h.outer e' (ho ▸ List.mem_cons_of_mem _ he')

theorem stepBetween (h : Follows p d s) (hg : d.goals = []) :
    Option.Rel (Follows p) d.stepBetween s.stepBetween := by
  rw [Descent.stepBetween, ParseState.stepBetween, ← h.outer_eq]
  cases hunread : d.parser.unread with
  | nil =>
    have hend : d.parser.atEnd = true := Parser.atEnd_iff.2 hunread
    rw [h.rest_of_unread_eq hunread]
    cases ho : d.outer with
    | nil =>
      rw [if_pos hend]
      exact .none
    | cons e outer =>
      rw [hend]
      exact .some (h.leave ho)
  | cons t ts =>
    have hend : d.parser.atEnd = false := by
      simp [Bool.eq_false_iff, Parser.atEnd_iff, hunread]
    rw [h.rest_of_unread_eq hunread, hend, Parser.current_of_unread_cons hunread]
    cases ho : d.outer with
    | nil =>
      have hblock : d.inBlock = false := by rw [Descent.inBlock, ho]; rfl
      exact .some (h.begin hg hunread (by simp [hblock]))
    | cons e outer =>
      simp only [List.map_cons, Bool.false_or]
      split
      · exact .some (h.leave ho)
      · exact .some (h.begin hg hunread fun _ => Bool.eq_false_iff.2 ‹_›)

theorem stepGoal {g : Goal} {gs : List Goal} (h : Follows p d s) (hg : d.goals = g :: gs) :
    Follows p (d.stepGoal g gs) (s.stepGoal g gs) := by
  have hbegun : d.start < d.parser.position := h.begun (by simp [hg])
  have hasks := h.asks
  rw [hg, List.mem_cons, not_or] at hasks
  have hplan : g.plan [d.parser.current.kind, d.parser.peekKind] = g.plan s.rest := by
    rw [h.stands.rest_eq, Parser.plan_eq (Ne.symm hasks.1)]
  rw [Descent.stepGoal, ParseState.stepGoal, hplan]
  cases hp : g.plan s.rest with
  | shift goals =>
    dsimp only
    obtain ⟨k, ks, hr⟩ := exists_of_plan_shift hp
    cases hunread : d.parser.unread with
    | nil => simp [h.rest_of_unread_eq hunread] at hr
    | cons t ts =>
      obtain ⟨hreads, hts⟩ := Parser.reads_advance hunread
      have hposition : d.parser.position < d.parser.advance.position := by
        rw [hreads.eq]
        exact Nat.lt_succ_self _
      have hgoals : .token .endOfInput ∉ goals := by
        rw [hr] at hp
        exact not_mem_of_mem_readings (mem_readings_of_plan hp)
      refine ⟨rfl, h.members_eq, h.outer_eq, h.stands.read hreads ?_, ?_, fun _ => ?_,
        fun e he => ⟨(h.outer e he).1, Nat.lt_trans (h.outer e he).2 hposition⟩⟩
      · rw [h.rest_of_unread_eq hunread, Parser.kinds_of_unread_eq hts]
        rfl
      · exact List.not_mem_append hgoals hasks.2
      · exact Nat.lt_trans hbegun hposition
  | expand goals =>
    have hgoals := not_mem_of_mem_expansions (mem_expansions_of_plan hp)
    exact ⟨rfl, h.members_eq, h.outer_eq, h.stands, List.not_mem_append hgoals hasks.2,
      fun _ => hbegun, h.outer⟩
  | fault e =>
    dsimp only
    refine h.fail e ?_
    obtain ⟨more, hreads, -⟩ := (d.parser.report e).exists_reads_skip d.inBlock
    rw [hreads.eq]
    change d.parser.position + more.length ≠ d.start
    omega
  | complete r =>
    exact ⟨rfl, h.members_eq, h.outer_eq, h.stands.record r, hasks.2, fun _ => hbegun, h.outer⟩
  | count r =>
    exact ⟨rfl, congrArg (r :: ·) h.members_eq, h.outer_eq, h.stands, hasks.2, fun _ => hbegun,
      h.outer⟩
  | enter =>
    refine ⟨rfl, rfl, ?_, h.stands, List.not_mem_nil, fun hne => absurd rfl hne, ?_⟩
    · simp only [List.map_cons, h.members_eq, h.outer_eq]
    · intro e he
      rcases List.mem_cons.1 he with rfl | he
      · exact ⟨hasks.2, hbegun⟩
      · exact h.outer e he

/-- The two keep step. -/
theorem step (h : Follows p d s) : Option.Rel (Follows p) d.step s.step := by
  rw [Descent.step, ParseState.step, ← h.goals_eq]
  cases hg : d.goals with
  | nil => exact h.stepBetween hg
  | cons g gs => exact .some (h.stepGoal hg)

theorem exists_step {t : ParseState} (h : Follows p d s) (hs : s.step = some t) :
    ∃ c, d.step = some c ∧ Follows p c t := by
  have hrel := h.step
  rw [hs] at hrel
  generalize d.step = next at hrel
  cases hrel with
  | some hct => exact ⟨_, rfl, hct⟩

theorem reaches {t : ParseState} (h : Follows p d s) (hs : s.Reaches t) :
    ∃ c, d.Reaches c ∧ Follows p c t := by
  induction hs with
  | refl => exact ⟨d, .refl, h⟩
  | tail _ hstep ih =>
    obtain ⟨c, hc, hfollows⟩ := ih
    obtain ⟨c', hc', hfollows'⟩ := hfollows.exists_step hstep
    exact ⟨c', hc.tail hc', hfollows'⟩

/-- They arrive at the end together. -/
theorem run (h : Follows p d s) : Follows p d.run s.run := by
  fun_induction Descent.run d generalizing s with
  | case1 d hstep =>
    have hrel := h.step
    rw [hstep] at hrel
    cases hs : s.step with
    | none => rwa [ParseState.run_eq_self hs]
    | some t =>
      rw [hs] at hrel
      cases hrel
  | case2 d c hstep ih =>
    have hrel := h.step
    rw [hstep] at hrel
    cases hs : s.step with
    | none =>
      rw [hs] at hrel
      cases hrel
    | some t =>
      rw [hs] at hrel
      cases hrel with
      | some hct =>
        rw [ParseState.run_eq_of_step hs]
        exact ih hct

end Follows

/-! ## What a run gives -/

namespace Parser

variable (p : Parser)

theorem parser_run :
    (Descent.run { parser := p }).parser
      = p.resume p.unread (ParseState.run { rest := p.kinds }).rules
          (ParseState.run { rest := p.kinds }).faults := by
  obtain ⟨hrest, done, hdone, hparser⟩ := (Follows.start p).run.stands
  -- The run over the kinds has read all of them.
  rw [(ParseState.run_eq_end _).2.2, eq_comm, kinds, List.map_eq_nil_iff] at hrest
  rw [hrest, List.append_nil] at hdone
  rw [hparser, hdone]

/-- The parser after a run stands in front of the end. -/
theorem after_eq :
    p.after =
      { p with
        position := p.position + p.unread.length
        log := p.log ++ (parseKinds p.kinds).faults.map fun f => f.diagnostic (p.tokenOf f)
        errors := p.errors + (parseKinds p.kinds).faults.length
        rules := [] } := by
  rw [after, parse]
  simp only [p.parser_run, resume, parseKinds, List.length_reverse]

theorem trace_eq :
    p.trace =
      ⟨p.rules.reverse ++ (parseKinds p.kinds).rules
        ++ (if p.after.errors == 0 then [.accept] else []), p.after.errors == 0⟩ := by
  have hmembers := (Follows.start p).run.members_eq
  rw [trace, after, parse]
  simp only [p.parser_run, hmembers, resume, parseKinds, List.reverse_append, List.append_assoc]

theorem diagnostics_eq :
    p.diagnostics = (parseKinds p.kinds).faults.map fun f => f.diagnostic (p.tokenOf f) := by
  rw [diagnostics, after_eq]
  exact List.drop_left

theorem log_after : p.after.log = p.log ++ p.diagnostics := by
  rw [diagnostics_eq, after_eq]

theorem unread_after : p.after.unread = [] := by
  rw [after_eq]
  exact (reads_of_unread_eq (List.append_nil _).symm).2

end Parser

end Pdl
