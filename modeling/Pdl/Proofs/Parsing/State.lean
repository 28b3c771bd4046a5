import Pdl.Parsing.Parser

/-!
# The parser over kinds

What a run does depends on the kinds of its tokens alone.  `ParseState` is a run as
the kinds have it: instead of a position in a stream it has the kinds that are left,
up to the end, and instead of diagnostics it has faults.  A step looks at no more
than the next two kinds.

`parseKinds` reads a list of kinds from left to right, once.  Every step reads a
kind or makes the goals lighter (`step_decreases`), so the run ends.  It ends with
nothing left to read (`run_eq_end`).
-/

namespace Pdl

/-! ## States -/

/-- Something that may not stand where it stands. -/
structure SyntaxFault where
  /-- What could have stood there. -/
  expected : Expected
  /-- How many kinds were left, the faulty one included. -/
  left : Nat
deriving Repr, DecidableEq

/-- How a fault is reported that lies at the token `t`. -/
def SyntaxFault.diagnostic (fault : SyntaxFault) (t : Token) : Diagnostic :=
  fault.expected.diagnostic t

/-- The state of the parser. -/
structure ParseState where
  /-- The goals of the present statement. -/
  goals : List Goal := []
  /-- The rules of the complete members of the innermost list, the latest first. -/
  members : List Rule := []
  /-- The lists around it, the nearest first. -/
  outer : List Enclosing := []
  /-- The kinds that are left. -/
  rest : List TokenKind
  /-- The completed rules, the latest first. -/
  rules : List Rule := []
  /-- The faults, the latest first. -/
  faults : List SyntaxFault := []
deriving Repr, DecidableEq

/-! ## Recovery -/

/-- The kinds from the next place where a statement may begin.  `inBlock` tells whether
a closing brace may end a block there. -/
def recover (inBlock : Bool) : List TokenKind → List TokenKind
  | [] => []
  | k :: ks =>
      if k = .punctuation .semicolon then ks
      else if k = .punctuation .closeBrace then if inBlock then k :: ks else ks
      else if beginsStatement k then k :: ks
      else recover inBlock ks

namespace ParseState

/-! ## Steps -/

/-- Whether the innermost list is the body of a block. -/
def inBlock (s : ParseState) : Bool := !s.outer.isEmpty

/-- The state after a fault at the next kind. -/
def fail (s : ParseState) (expected : Expected) : ParseState :=
  { s with
    goals := []
    rest := recover s.inBlock s.rest
    faults := ⟨expected, s.rest.length⟩ :: s.faults }

/-- The state after the end of the body of a block. -/
def leave (s : ParseState) (e : Enclosing) (outer : List Enclosing) : ParseState :=
  { s with
    goals := .reduce .bodyEnd :: s.members.map .reduce ++ e.goals
    members := e.members
    outer := outer }

/-- The state after the beginning of a statement with the kind `k`. -/
def begin (s : ParseState) (k : TokenKind) (ks : List TokenKind) : ParseState :=
  match memberGoals? s.inBlock k with
  | some goals => { s with goals := goals, rest := ks }
  | none => s.fail .statement

/-- The state after one step between two statements; there is none at the end of the program. -/
def stepBetween (s : ParseState) : Option ParseState :=
  match s.outer, s.rest with
  | [], [] => none
  | [], k :: ks => some (s.begin k ks)
  | e :: outer, [] => some (s.leave e outer)
  | e :: outer, k :: ks => some (if endsBlock k then s.leave e outer else s.begin k ks)

/-- The state after one step at the goal `g`, with `gs` to follow. -/
def stepGoal (s : ParseState) (g : Goal) (gs : List Goal) : ParseState :=
  match g.plan s.rest with
  | .shift goals => { s with goals := goals ++ gs, rest := s.rest.tail }
  | .expand goals => { s with goals := goals ++ gs }
  | .fault expected => s.fail expected
  | .complete r => { s with goals := gs, rules := r :: s.rules }
  | .count r => { s with goals := gs, members := r :: s.members }
  | .enter => { s with goals := [], members := [], outer := ⟨s.members, gs⟩ :: s.outer }

/-- The state after one step. -/
def step (s : ParseState) : Option ParseState :=
  match s.goals with
  | [] => s.stepBetween
  | g :: gs => some (s.stepGoal g gs)

/-! ## The end of the run -/

/-- The weight of all goals, those that wait included. -/
def weight (s : ParseState) : Nat :=
  goalsWeight s.goals + s.members.length + outerWeight s.outer

end ParseState

theorem length_recover_le (inBlock : Bool) (ks : List TokenKind) :
    (recover inBlock ks).length ≤ ks.length := by
  fun_induction recover inBlock ks <;> (simp; try omega)

/-- Where no statement begins, recovery skips a token. -/
theorem length_recover_lt {inBlock : Bool} {k : TokenKind} (ks : List TokenKind)
    (h : memberGoals? inBlock k = none) (hb : inBlock = true → endsBlock k = false) :
    (recover inBlock (k :: ks)).length < (k :: ks).length := by
  have hle := length_recover_le inBlock ks
  have hk : beginsStatement k = false := by
    cases hb' : inBlock <;> subst hb'
    · cases k with
      | keyword w => cases w <;> simp_all [memberGoals?, beginsStatement, statementGoals?,
          simpleGoals?]
      | _ => rfl
    · cases k with
      | keyword w => cases w <;> simp_all [memberGoals?, beginsStatement, statementGoals?,
          simpleGoals?, endsBlock]
      | _ => rfl
  unfold recover
  split
  · simp
  split
  · rename_i hc
    subst hc
    cases inBlock with
    | true => simp [endsBlock] at hb
    | false => simp
  · simp [hk]
    omega

namespace ParseState

/-- What a step makes smaller: what is left to read, then the weight. -/
def Smaller (t s : ParseState) : Prop :=
  t.rest.length < s.rest.length ∨ t.rest.length = s.rest.length ∧ t.weight < s.weight

theorem smaller_of_le {s t : ParseState} (hr : t.rest.length ≤ s.rest.length)
    (hw : t.weight < s.weight) : t.Smaller s := by
  unfold Smaller
  omega

theorem leave_smaller (s : ParseState) {e : Enclosing} {outer : List Enclosing}
    (h : s.goals = []) (ho : s.outer = e :: outer) : (s.leave e outer).Smaller s := by
  apply smaller_of_le
  · simp [leave]
  · simp [leave, weight, outerWeight, h, ho, Goal.weight]
    omega

theorem begin_smaller (s : ParseState) {k : TokenKind} {ks : List TokenKind}
    (hr : s.rest = k :: ks) (hb : s.inBlock = true → endsBlock k = false) :
    (s.begin k ks).Smaller s := by
  left
  unfold begin
  split
  · simp [hr]
  · rename_i h
    have := length_recover_lt ks h hb
    simpa [fail, hr] using this

theorem stepGoal_smaller (s : ParseState) {g : Goal} {gs : List Goal} (h : s.goals = g :: gs) :
    (s.stepGoal g gs).Smaller s := by
  have hg := g.weight_pos
  unfold stepGoal
  split
  · rename_i hp
    obtain ⟨k, ks, hr⟩ := exists_of_plan_shift hp
    left
    simp [hr]
  · rename_i hp
    have := goalsWeight_lt_of_plan hp
    apply smaller_of_le (by simp)
    simp [weight, h]
    omega
  · apply smaller_of_le (length_recover_le _ _)
    simp [fail, weight, h]
    omega
  · apply smaller_of_le (by simp)
    simp [weight, h]
    omega
  · rename_i hp
    obtain rfl := eq_tally_of_plan hp
    apply smaller_of_le (by simp)
    simp [weight, h, Goal.weight]
    omega
  · rename_i hp
    obtain rfl := eq_block_of_plan hp
    apply smaller_of_le (by simp)
    simp [weight, outerWeight, h, Goal.weight]
    omega

/-- A step reads a token, or reads none and leaves lighter goals. -/
theorem step_decreases {s t : ParseState} (h : s.step = some t) : t.Smaller s := by
  unfold step at h
  split at h
  · rename_i hg
    unfold stepBetween at h
    split at h
    · cases h
    · rename_i hr
      cases h
      exact s.begin_smaller hr (by simp_all [inBlock])
    · rename_i ho hr
      cases h
      exact s.leave_smaller hg ho
    · rename_i ho hr
      cases h
      split
      · exact s.leave_smaller hg ho
      · exact s.begin_smaller hr (by simp_all)
  · rename_i hg
    cases h
    exact s.stepGoal_smaller hg

/-- The state at the end of the program. -/
def run (s : ParseState) : ParseState :=
  match _h : s.step with
  | none => s
  | some t => t.run
termination_by (s.rest.length, s.weight)
decreasing_by
  have := step_decreases _h
  simp only [Smaller] at this
  simp only [Prod.lex_def]
  omega

/-- The run ends at the end of the program, outside of all blocks. -/
theorem run_eq_end (s : ParseState) : s.run.goals = [] ∧ s.run.outer = [] ∧ s.run.rest = [] := by
  fun_induction run s with
  | case1 s h =>
    unfold step at h
    split at h
    · rename_i hg
      unfold stepBetween at h
      split at h <;> simp_all
    · cases h
  | case2 s t h ih => exact ih

end ParseState

/-! ## The result -/

/-- What reading a list of kinds gives. -/
structure ParseResult where
  /-- The completed rules, in order. -/
  rules : List Rule
  /-- The faults, in order. -/
  faults : List SyntaxFault
deriving Repr, DecidableEq

/-- Reads a list of kinds as a program.  The rules of the program are completed at its end,
the last member first. -/
def parseKinds (kinds : List TokenKind) : ParseResult :=
  let s := ParseState.run { rest := kinds }
  ⟨s.rules.reverse ++ .programEnd :: s.members, s.faults.reverse⟩

example : parseKinds [.keyword .put, .integer, .punctuation .semicolon]
    = ⟨[.integer, .notOperand, .addOperand, .equalOperand, .put, .simpleStatement, .programEnd,
        .programStatement], []⟩ := by cbv

example : (parseKinds [.keyword .put, .punctuation .semicolon]).faults = [⟨.expression, 1⟩] := by
  cbv

end Pdl
