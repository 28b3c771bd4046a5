import Pdl.Diagnostic.Basic
import Pdl.Parsing.Goal
import Pdl.Token.Basic

/-!
# The parser

A `Parser` has the significant tokens of a stream, and the position of the
next one.  It stops in front of the first `endOfInput` and never moves behind
it; where a stream has none, a stand-in closes it.  What it reports goes to
its log, behind what is there already.

A `Descent` is a parser in the middle of a run.  It keeps the goals of the
statement it is in, and the lists of statements it is in.  A list of
statements is the whole program or the body of a block.  It has one rule for
each of its complete members.  Between two statements there are no goals, and
the next token tells how the list goes on: a token that begins a statement is
read and gives its goals; a closing brace, the word `function` and the end of
the input end the body of a block; any other token is a fault.

After a fault the rest of the statement is given up.  `Parser.skip` moves to a
place where a statement may begin: behind the next semicolon, in front of a
word that begins a statement, or at a closing brace, which is skipped too
unless it may end a block.  If that is the place where the statement began,
one token more is skipped.  A statement that lies around the faulty one is not
given up.

Every step reads a token or makes the goals lighter (`step_decreases`), so a
run ends.

A parser may be run again.  It has then nothing left to read, but it does not
forget that it has met faults: a run accepts only if no run has met any.
-/

namespace Pdl

/-- The completed rules of a run, and whether it accepts. -/
structure Trace where
  /-- The rules, in the order of their completion. -/
  rules : List Rule
  /-- Whether no fault has been met. -/
  accepted : Bool
deriving Repr, DecidableEq

/-- The numbers of the rules. -/
def Trace.numbers (t : Trace) : List Nat := t.rules.map Rule.number

/-! ## Streams -/

/-- The tokens of a stream that the grammar sees. -/
def significantTokens (ts : List Token) : List Token := ts.filter Token.isSignificant

/-- An end for a stream that has none, at the end of its last token. -/
def standInEnd (ts : List Token) : Token where
  kind := .endOfInput
  lexeme := ""
  span := match ts.getLast? with
    | some t => ⟨t.span.stop, t.span.stop, t.span.line, t.span.column⟩
    | none => .nowhere

/-! ## Diagnostics -/

/-- How it is reported that the token `t` stands in the place of what was expected. -/
def Expected.diagnostic (expected : Expected) (t : Token) : Diagnostic where
  level := .error
  message :=
    if t.kind = .endOfInput then "unexpected end of input, expected " ++ expected.text
    else "expected " ++ expected.text ++ ", found " ++ t.describe
  span := t.span
  code := some <|
    if t.kind = .endOfInput then .unexpectedEnd
    else match expected with
      | .token _ => .expectedToken
      | _ => .unexpectedToken
  helps := if t.kind = .float then ["floating-point literals are not supported"] else []

/-! ## Parsers -/

/-- A reader of one stream of tokens. -/
structure Parser where
  /-- The significant tokens. -/
  tokens : Array Token
  /-- Stands in for the end where the stream has none. -/
  ending : Token
  ending_kind : ending.kind = .endOfInput
  /-- The index of the next token. -/
  position : Nat := 0
  /-- What has been reported. -/
  log : List Diagnostic := []
  /-- The number of faults met. -/
  errors : Nat := 0
  /-- The rules completed since a trace was handed out, the latest first. -/
  rules : List Rule := []
deriving Repr, DecidableEq

namespace Parser

/-- The parser in front of a stream, with what has been reported before. -/
def ofTokens (ts : List Token) (log : List Diagnostic := []) : Parser where
  tokens := (significantTokens ts).toArray
  ending := standInEnd ts
  ending_kind := rfl
  log := log

/-- The next token. -/
def current (p : Parser) : Token := p.tokens[p.position]?.getD p.ending

/-- The kind of the token behind the next one. -/
def peekKind (p : Parser) : TokenKind :=
  (p.tokens[p.position + 1]?.map (·.kind)).getD .endOfInput

/-- Whether the end is next. -/
def atEnd (p : Parser) : Bool := p.current.kind == .endOfInput

/-- Whether the next token begins a statement or a function. -/
def atStatement (p : Parser) : Bool := beginsStatement p.current.kind

/-- The parser behind the next token, but never behind the end. -/
def advance (p : Parser) : Parser := if p.atEnd then p else { p with position := p.position + 1 }

/-- Reports the next token. -/
def report (p : Parser) (expected : Expected) : Parser :=
  { p with log := p.log ++ [expected.diagnostic p.current], errors := p.errors + 1 }

/-- Records that the rule `r` is complete. -/
def record (p : Parser) (r : Rule) : Parser := { p with rules := r :: p.rules }

/-- The number of tokens from the next one on. -/
def left (p : Parser) : Nat := p.tokens.size - p.position

theorem left_advance (p : Parser) : p.advance.left ≤ p.left := by
  unfold advance left
  split
  · exact Nat.le_refl _
  · simp only; omega

theorem left_advance_lt {p : Parser} (h : p.atEnd = false) : p.advance.left < p.left := by
  have hlt : p.position < p.tokens.size := by
    refine Nat.lt_of_not_le fun hge => ?_
    rw [atEnd, current, Array.getElem?_eq_none hge, Option.getD_none, p.ending_kind] at h
    cases h
  rw [advance, h, if_neg Bool.false_ne_true]
  simp only [left]
  omega

/-- The parser at the next place where a statement may begin.  `inBlock` tells whether a closing
brace may end a block there. -/
def skip (inBlock : Bool) (p : Parser) : Parser :=
  if _h : p.atEnd then p
  else if p.current.kind = .punctuation .semicolon then p.advance
  else if p.current.kind = .punctuation .closeBrace then if inBlock then p else p.advance
  else if p.atStatement then p
  else skip inBlock p.advance
termination_by p.left
decreasing_by exact left_advance_lt (Bool.eq_false_iff.2 _h)

theorem left_skip_le (inBlock : Bool) (p : Parser) : (p.skip inBlock).left ≤ p.left := by
  fun_induction skip inBlock p with
  | case1 | case3 | case5 => exact Nat.le_refl _
  | case2 p | case4 p => exact p.left_advance
  | case6 p _ _ _ _ ih => exact Nat.le_trans ih p.left_advance

/-- Where skipping does not move, nothing is skipped. -/
theorem skip_eq_self_or_lt (inBlock : Bool) (p : Parser) :
    p.skip inBlock = p ∨ (p.skip inBlock).left < p.left := by
  rw [skip]
  split
  · exact .inl rfl
  rename_i hend
  have hlt := left_advance_lt (Bool.eq_false_iff.2 hend)
  split
  · exact .inr hlt
  split
  · split
    · exact .inl rfl
    · exact .inr hlt
  split
  · exact .inl rfl
  · exact .inr (Nat.lt_of_le_of_lt (left_skip_le ..) hlt)

end Parser

/-! ## Lists of statements -/

/-- Whether a kind ends the body of a block. -/
def endsBlock (k : TokenKind) : Bool :=
  k == .punctuation .closeBrace || k == .keyword .function

/-- The goals of a member of a list of statements, after its first token. -/
def memberGoals? (inBlock : Bool) (k : TokenKind) : Option (List Goal) :=
  if inBlock then (statementGoals? k).map (· ++ [.tally .bodyStatement])
  else if k = .keyword .function then some (functionGoals ++ [.tally .programFunction])
  else (statementGoals? k).map (· ++ [.tally .programStatement])

/-- A list of statements around the innermost one. -/
structure Enclosing where
  /-- The rules of its complete members, the latest first. -/
  members : List Rule
  /-- The goals of its member that the inner list belongs to. -/
  goals : List Goal
deriving Repr, DecidableEq

/-- The weight of the lists around the innermost one. -/
def outerWeight : List Enclosing → Nat
  | [] => 0
  | e :: outer => goalsWeight e.goals + e.members.length + 3 + outerWeight outer

/-! ## Descents -/

/-- A list of statements that waits for the innermost one. -/
structure Suspended extends Enclosing where
  /-- The position at which its member began. -/
  start : Nat
deriving Repr, DecidableEq

/-- A parser in the middle of a run. -/
structure Descent where
  parser : Parser
  /-- The goals of the present statement. -/
  goals : List Goal := []
  /-- The rules of the complete members of the innermost list, the latest first. -/
  members : List Rule := []
  /-- The position at which the present statement began. -/
  start : Nat := 0
  /-- The lists around the innermost one, the nearest first. -/
  outer : List Suspended := []
deriving Repr, DecidableEq

namespace Descent

/-- Whether the innermost list is the body of a block. -/
def inBlock (d : Descent) : Bool := !d.outer.isEmpty

/-- The descent after a fault at the next token. -/
def fail (d : Descent) (expected : Expected) : Descent :=
  let p := (d.parser.report expected).skip d.inBlock
  { d with goals := [], parser := if p.position = d.start then p.advance else p }

/-- The descent after the beginning of a statement. -/
def begin (d : Descent) : Descent :=
  let d := { d with start := d.parser.position }
  match memberGoals? d.inBlock d.parser.current.kind with
  | some goals => { d with goals := goals, parser := d.parser.advance }
  | none => d.fail .statement

/-- The descent after the end of the body of a block. -/
def leave (d : Descent) (e : Suspended) (outer : List Suspended) : Descent :=
  { d with
    goals := .reduce .bodyEnd :: d.members.map .reduce ++ e.goals
    members := e.members
    start := e.start
    outer := outer }

/-- The descent after one step between two statements; there is none at the end of the program. -/
def stepBetween (d : Descent) : Option Descent :=
  match d.outer with
  | [] => if d.parser.atEnd then none else some d.begin
  | e :: outer =>
      some (if d.parser.atEnd || endsBlock d.parser.current.kind then d.leave e outer else d.begin)

/-- The descent after one step at the goal `g`, with `gs` to follow. -/
def stepGoal (d : Descent) (g : Goal) (gs : List Goal) : Descent :=
  match g.plan [d.parser.current.kind, d.parser.peekKind] with
  | .shift goals => { d with goals := goals ++ gs, parser := d.parser.advance }
  | .expand goals => { d with goals := goals ++ gs }
  | .fault expected => d.fail expected
  | .complete r => { d with goals := gs, parser := d.parser.record r }
  | .count r => { d with goals := gs, members := r :: d.members }
  | .enter =>
      { d with goals := [], members := [], outer := ⟨⟨d.members, gs⟩, d.start⟩ :: d.outer }

/-- The descent after one step. -/
def step (d : Descent) : Option Descent :=
  match d.goals with
  | [] => d.stepBetween
  | g :: gs => some (d.stepGoal g gs)

/-! ## The end of the run -/

/-- The weight of all goals, those that wait included. -/
def weight (d : Descent) : Nat :=
  goalsWeight d.goals + d.members.length + outerWeight (d.outer.map Suspended.toEnclosing)

/-- What a step makes smaller: what is left to read, then the weight. -/
def Smaller (c d : Descent) : Prop :=
  c.parser.left < d.parser.left ∨ c.parser.left = d.parser.left ∧ c.weight < d.weight

theorem smaller_of_le {c d : Descent} (hleft : c.parser.left ≤ d.parser.left)
    (hweight : c.weight < d.weight) : c.Smaller d := by
  unfold Smaller
  omega

theorem left_fail_le (d : Descent) (expected : Expected) :
    (d.fail expected).parser.left ≤ d.parser.left := by
  have hskip := (d.parser.report expected).left_skip_le d.inBlock
  simp only [fail]
  split
  · exact Nat.le_trans (Parser.left_advance _) hskip
  · exact hskip

/-- A fault of a statement that began at the next token skips that token. -/
theorem left_fail_lt {d : Descent} (hstart : d.start = d.parser.position)
    (hend : d.parser.atEnd = false) (expected : Expected) :
    (d.fail expected).parser.left < d.parser.left := by
  simp only [fail]
  rcases (d.parser.report expected).skip_eq_self_or_lt d.inBlock with hskip | hlt
  · have hposition : (d.parser.report expected).position = d.start := hstart.symm
    rw [hskip, if_pos hposition]
    exact Parser.left_advance_lt (p := d.parser.report expected) hend
  · split
    · exact Nat.lt_of_le_of_lt (Parser.left_advance _) hlt
    · exact hlt

theorem begin_smaller {d : Descent} (hend : d.parser.atEnd = false) : d.begin.Smaller d := by
  left
  unfold begin
  dsimp only
  split
  · exact Parser.left_advance_lt hend
  · exact left_fail_lt (d := { d with start := d.parser.position }) rfl hend .statement

theorem leave_smaller {d : Descent} {e : Suspended} {outer : List Suspended} (hg : d.goals = [])
    (ho : d.outer = e :: outer) : (d.leave e outer).Smaller d := by
  apply smaller_of_le
  · exact Nat.le_refl _
  · simp [leave, weight, outerWeight, hg, ho, Goal.weight]
    omega

theorem stepGoal_smaller {d : Descent} {g : Goal} {gs : List Goal} (hg : d.goals = g :: gs) :
    (d.stepGoal g gs).Smaller d := by
  have hpos := g.weight_pos
  unfold stepGoal
  split
  · rename_i goals hp
    cases hend : d.parser.atEnd with
    | false => exact .inl (Parser.left_advance_lt hend)
    | true =>
      -- At the end only the goal is met, and nothing is read.
      rw [beq_iff_eq.1 hend] at hp
      obtain rfl := eq_nil_of_plan_shift hp
      refine smaller_of_le (by exact Parser.left_advance _) ?_
      simp [weight, hg]
      omega
  · rename_i hp
    have := goalsWeight_lt_of_plan hp
    refine smaller_of_le (by exact Nat.le_refl _) ?_
    simp [weight, hg]
    omega
  · apply smaller_of_le (d.left_fail_le _)
    simp [fail, weight, hg]
    omega
  · refine smaller_of_le (by exact Nat.le_refl _) ?_
    simp [weight, hg]
    omega
  · rename_i hp
    obtain rfl := eq_tally_of_plan hp
    refine smaller_of_le (by exact Nat.le_refl _) ?_
    simp [weight, hg, Goal.weight]
    omega
  · rename_i hp
    obtain rfl := eq_block_of_plan hp
    refine smaller_of_le (by exact Nat.le_refl _) ?_
    simp [weight, outerWeight, hg, Goal.weight]
    omega

/-- A step reads a token, or reads none and leaves lighter goals. -/
theorem step_decreases {c d : Descent} (h : d.step = some c) : c.Smaller d := by
  unfold step at h
  split at h
  · rename_i hg
    unfold stepBetween at h
    split at h
    · split at h
      · cases h
      · rename_i hend
        cases h
        exact begin_smaller (Bool.eq_false_iff.2 hend)
    · rename_i ho
      cases h
      split
      · exact leave_smaller hg ho
      · rename_i hend
        rw [Bool.or_eq_true, not_or] at hend
        exact begin_smaller (Bool.eq_false_iff.2 hend.1)
  · rename_i hg
    cases h
    exact stepGoal_smaller hg

/-- The descent at the end of the program. -/
def run (d : Descent) : Descent :=
  match _h : d.step with
  | none => d
  | some c => c.run
termination_by (d.parser.left, d.weight)
decreasing_by
  have := step_decreases _h
  simp only [Smaller] at this
  simp only [Prod.lex_def]
  omega

end Descent

/-! ## Runs -/

namespace Parser

/-- Reads to the end of the stream, and hands out the trace.  The rules of the program are
completed at its end, the last member first. -/
def parse (p : Parser) : Trace × Parser :=
  let d := Descent.run { parser := p }
  let accepted := d.parser.errors == 0
  (⟨d.parser.rules.reverse ++ .programEnd :: d.members ++ (if accepted then [.accept] else []),
      accepted⟩,
    { d.parser with rules := [] })

/-- The trace of a run. -/
def trace (p : Parser) : Trace := p.parse.1

/-- The parser after a run. -/
def after (p : Parser) : Parser := p.parse.2

/-- What a run puts behind the log. -/
def diagnostics (p : Parser) : List Diagnostic := p.after.log.drop p.log.length

/-- A run, with what it reports. -/
def run (p : Parser) : Trace × List Diagnostic × Parser :=
  let (trace, after) := p.parse
  (trace, after.log.drop p.log.length, after)

theorem run_eq (p : Parser) : p.run = (p.trace, p.diagnostics, p.after) := rfl

end Parser

end Pdl
