import Pdl.Grammar.Rule

/-!
# Goals of the parser

The parser keeps a list of goals: what it still has to find, in order, to
complete the statement it is in.  Some goals are constructs of the grammar,
some are a single token, and some only record that a rule is complete.

One token of lookahead tells how to go on with a goal, two for a name that may
begin a call.  For a construct `Goal.plan` answers with one of three things:
read the next token and then meet other goals, meet other goals first, or
report what was expected in the place of the next token.

The left-recursive rules for comparison and addition are goals that look for a
further operator (`moreEqual`, `moreSum`).  The right-recursive lists of
parameters and arguments count their members and record their rules when the
list ends, innermost first.
-/

namespace Pdl

/-! ## Goals -/

/-- What the parser has to find or to record. -/
inductive Goal where
  /-- A token of one kind. -/
  | token (k : TokenKind)
  /-- The rule `r` is complete. -/
  | reduce (r : Rule)
  /-- A member of the innermost list of statements is complete; `r` adds it to the list. -/
  | tally (r : Rule)
  /-- The statements of a block, up to its closing brace. -/
  | block
  /-- A statement without parts that are statements. -/
  | simple
  /-- What follows the name at the beginning of a statement. -/
  | afterName
  /-- What follows the type of a declaration. -/
  | afterType
  /-- A type. -/
  | type
  /-- The type of a result. -/
  | result
  /-- Parameters. -/
  | parameters
  /-- Further parameters, after `n` further ones. -/
  | moreParameters (n : Nat)
  /-- An expression. -/
  | expression
  /-- Further operands of a comparison. -/
  | moreEqual
  /-- An operand of a comparison. -/
  | sum
  /-- Further operands of an addition. -/
  | moreSum
  /-- An operand of an addition. -/
  | operand
  /-- An operand of a negation. -/
  | primary
  /-- Arguments. -/
  | arguments
  /-- Further arguments, after `n` further ones. -/
  | moreArguments (n : Nat)
  /-- What a function returns. -/
  | returned
deriving Repr, DecidableEq

/-- What could have stood in the place of a token. -/
inductive Expected where
  /-- A token of one kind. -/
  | token (k : TokenKind)
  | statement
  | expression
  | type
  | result
  | parameter
  /-- An assignment or the arguments of a call. -/
  | useOfName
deriving Repr, DecidableEq

/-- How messages call it. -/
def Expected.text : Expected → String
  | token k => k.describe
  | statement => "statement"
  | expression => "expression"
  | type => "type"
  | result => "type or 'void'"
  | parameter => "parameter type or 'void'"
  | useOfName => "'=', '+=' or '('"

/-- How to go on with a goal. -/
inductive Plan where
  /-- Read the next token, then meet these goals. -/
  | shift (goals : List Goal)
  /-- Meet these goals instead. -/
  | expand (goals : List Goal)
  /-- The next token cannot stand here. -/
  | fault (expected : Expected)
  /-- Record that the rule `r` is complete. -/
  | complete (r : Rule)
  /-- Record one more member of the innermost list of statements. -/
  | count (r : Rule)
  /-- Begin a list of statements inside the present one. -/
  | enter
deriving Repr, DecidableEq

/-! ## The beginnings of statements -/

/-- A punctuation mark as a goal. -/
abbrev Goal.mark (p : Punctuation) : Goal := .token (.punctuation p)

/-- A name as a goal. -/
abbrev Goal.name : Goal := .token .identifier

/-- The goals after the first token of a simple statement. -/
def simpleGoals? : TokenKind → Option (List Goal)
  | .identifier => some [.afterName]
  | .keyword .put => some [.expression, .mark .semicolon, .reduce .put]
  | .keyword .get => some [.name, .mark .semicolon, .reduce .get]
  | .keyword .return => some [.returned, .mark .semicolon, .reduce .return]
  | _ => none

/-- The goals after the first token of a statement. -/
def statementGoals? : TokenKind → Option (List Goal)
  | .keyword .if =>
      some [.mark .openParen, .expression, .mark .closeParen, .simple, .reduce .ifThen]
  | .keyword .while =>
      some [.mark .openParen, .expression, .mark .closeParen, .mark .openBrace, .block,
        .mark .closeBrace, .reduce .whileDo]
  | .keyword .let => some [.name, .type, .afterType]
  | k => (simpleGoals? k).map (· ++ [.reduce .simpleStatement])

/-- The goals after the first token of a function. -/
def functionGoals : List Goal :=
  [.name, .result, .reduce .functionName, .mark .openParen, .parameters, .mark .closeParen,
    .reduce .functionHead, .mark .openBrace, .block, .mark .closeBrace, .reduce .function]

/-- Whether a token of this kind begins a statement or a function and no
other construct.  The parser takes up its work again in front of it. -/
def beginsStatement : TokenKind → Bool
  | .keyword .if | .keyword .while | .keyword .let | .keyword .put | .keyword .get
  | .keyword .return | .keyword .function => true
  | _ => false

/-- The rule of a type. -/
def typeRule? : TokenKind → Option Rule
  | .keyword .int => some .typeInt
  | .keyword .boolean => some .typeBoolean
  | .keyword .string => some .typeString
  | _ => none

/-! ## Plans -/

/-- `n` times the rule `r`. -/
def reduceTimes (n : Nat) (r : Rule) : List Goal := List.replicate n (.reduce r)

/-- The plan for a goal by the kinds of the tokens ahead. -/
def Goal.plan (ahead : List TokenKind) : Goal → Plan
  | .token k => if ahead.head? = some k then .shift [] else .fault (.token k)
  | .reduce r => .complete r
  | .tally r => .count r
  | .block => .enter
  | .simple =>
      match ahead.head?.bind simpleGoals? with
      | some goals => .shift goals
      | none => .fault .statement
  | .afterName =>
      match ahead.head? with
      | some (.operator .assign) =>
          .shift [.expression, .mark .semicolon, .reduce .assign]
      | some (.operator .plusAssign) =>
          .shift [.expression, .mark .semicolon, .reduce .addAssign]
      | some (.punctuation .openParen) =>
          .shift [.arguments, .mark .closeParen, .mark .semicolon, .reduce .callStatement]
      | _ => .fault .useOfName
  | .afterType =>
      if ahead.head? = some (.operator .assign)
      then .shift [.expression, .mark .semicolon, .reduce .declareInit]
      else .expand [.mark .semicolon, .reduce .declare]
  | .type =>
      match ahead.head?.bind typeRule? with
      | some r => .shift [.reduce r]
      | none => .fault .type
  | .result =>
      if ahead.head? = some (.keyword .void) then .shift [.reduce .resultVoid]
      else match ahead.head?.bind typeRule? with
        | some r => .shift [.reduce r, .reduce .resultType]
        | none => .fault .result
  | .parameters =>
      if ahead.head? = some (.keyword .void) then .shift [.reduce .parametersVoid]
      else match ahead.head?.bind typeRule? with
        | some r => .shift [.reduce r, .name, .moreParameters 0]
        | none => .fault .parameter
  | .moreParameters n =>
      if ahead.head? = some (.punctuation .comma)
      then .shift [.type, .name, .moreParameters (n + 1)]
      else .expand (.reduce .parametersEnd :: reduceTimes n .parametersMore
        ++ [.reduce .parameters])
  | .expression => .expand [.sum, .reduce .equalOperand, .moreEqual]
  | .moreEqual =>
      if ahead.head? = some (.operator .equal) then .shift [.sum, .reduce .equal, .moreEqual]
      else .expand []
  | .sum => .expand [.operand, .reduce .addOperand, .moreSum]
  | .moreSum =>
      if ahead.head? = some (.operator .plus) then .shift [.operand, .reduce .add, .moreSum]
      else .expand []
  | .operand =>
      if ahead.head? = some (.operator .not) then .shift [.primary, .reduce .not]
      else .expand [.primary, .reduce .notOperand]
  | .primary =>
      match ahead with
      | .identifier :: .punctuation .openParen :: _ =>
          .shift [.mark .openParen, .arguments, .mark .closeParen, .reduce .call]
      | .identifier :: _ => .shift [.reduce .variable]
      | .punctuation .openParen :: _ =>
          .shift [.expression, .mark .closeParen, .reduce .parenthesised]
      | .integer :: _ => .shift [.reduce .integer]
      | .string :: _ => .shift [.reduce .string]
      | _ => .fault .expression
  | .arguments =>
      if ahead.head? = some (.punctuation .closeParen) then .expand [.reduce .argumentsNone]
      else .expand [.expression, .moreArguments 0]
  | .moreArguments n =>
      if ahead.head? = some (.punctuation .comma) then .shift [.expression, .moreArguments (n + 1)]
      else .expand (.reduce .argumentsEnd :: reduceTimes n .argumentsMore ++ [.reduce .arguments])
  | .returned =>
      if ahead.head? = some (.punctuation .semicolon) then .expand [.reduce .returnNothing]
      else .expand [.expression, .reduce .returnValue]

/-! ## Weights -/

/-- A bound on the goals that come from a goal before a token is read. -/
def Goal.weight : Goal → Nat
  | .token _ | .reduce _ | .simple | .afterName | .type | .result | .parameters | .moreEqual
  | .moreSum | .primary => 1
  | .tally _ => 2
  | .operand | .afterType => 3
  | .block => 4
  | .sum => 6
  | .expression => 9
  | .returned => 11
  | .arguments => 13
  | .moreParameters n | .moreArguments n => n + 3

/-- The weight of a list of goals. -/
def goalsWeight : List Goal → Nat
  | [] => 0
  | g :: goals => g.weight + goalsWeight goals

@[simp] theorem goalsWeight_nil : goalsWeight [] = 0 := rfl

@[simp] theorem goalsWeight_cons (g : Goal) (goals : List Goal) :
    goalsWeight (g :: goals) = g.weight + goalsWeight goals := rfl

@[simp] theorem goalsWeight_append (a b : List Goal) :
    goalsWeight (a ++ b) = goalsWeight a + goalsWeight b := by
  induction a with
  | nil => simp
  | cons g a ih => simp [ih, Nat.add_assoc]

@[simp] theorem goalsWeight_replicate_reduce (n : Nat) (r : Rule) :
    goalsWeight (List.replicate n (.reduce r)) = n := by
  induction n with
  | zero => rfl
  | succ n ih => simp [List.replicate_succ, ih, Goal.weight, Nat.add_comm]

@[simp] theorem goalsWeight_reduceTimes (n : Nat) (r : Rule) :
    goalsWeight (reduceTimes n r) = n := by
  simp [reduceTimes]

@[simp] theorem goalsWeight_map_reduce (rs : List Rule) :
    goalsWeight (rs.map .reduce) = rs.length := by
  induction rs with
  | nil => rfl
  | cons r rs ih => simp [ih, Goal.weight, Nat.add_comm]

theorem Goal.weight_pos (g : Goal) : 0 < g.weight := by
  cases g <;> simp [Goal.weight]

/-- Goals met instead of another weigh less. -/
theorem goalsWeight_lt_of_plan {ahead : List TokenKind} {g : Goal} {goals : List Goal}
    (h : g.plan ahead = .expand goals) : goalsWeight goals < g.weight := by
  cases g with
  | moreParameters n | moreArguments n =>
    simp only [Goal.plan] at h
    split at h
    · cases h
    · cases h; simp [Goal.weight]; omega
  | expression | sum => cases h; simp [Goal.weight]
  | moreEqual | moreSum | operand | afterType =>
    simp only [Goal.plan] at h
    split at h
    · cases h
    · cases h; simp [Goal.weight]
  | arguments | returned =>
    simp only [Goal.plan] at h
    split at h <;> cases h <;> simp [Goal.weight]
  | _ =>
    simp only [Goal.plan] at h
    repeat' split at h
    all_goals cases h

/-! ## Plans that are no readings -/

theorem eq_reduce_of_plan {g : Goal} {ahead : List TokenKind} {r : Rule}
    (h : g.plan ahead = .complete r) : g = .reduce r := by
  cases g <;> simp only [Goal.plan] at h
  case reduce => cases h; rfl
  all_goals
    repeat' split at h
    all_goals cases h

theorem eq_tally_of_plan {g : Goal} {ahead : List TokenKind} {r : Rule}
    (h : g.plan ahead = .count r) : g = .tally r := by
  cases g <;> simp only [Goal.plan] at h
  case tally => cases h; rfl
  all_goals
    repeat' split at h
    all_goals cases h

theorem eq_block_of_plan {g : Goal} {ahead : List TokenKind}
    (h : g.plan ahead = .enter) : g = .block := by
  cases g <;> simp only [Goal.plan] at h
  case block => rfl
  all_goals
    repeat' split at h
    all_goals cases h

/-! ## Plans that are readings -/

/-- A token is read only where there is one. -/
theorem exists_of_plan_shift {ahead : List TokenKind} {g : Goal} {goals : List Goal}
    (h : g.plan ahead = .shift goals) : ∃ k ks, ahead = k :: ks := by
  cases ahead with
  | cons k ks => exact ⟨k, ks, rfl⟩
  | nil => cases g <;> simp [Goal.plan] at h

/-- In front of the end only a goal for the end itself is met. -/
theorem eq_nil_of_plan_shift {g : Goal} {ahead : List TokenKind} {goals : List Goal}
    (h : g.plan (.endOfInput :: ahead) = .shift goals) : goals = [] := by
  cases g with
  | token k =>
    simp only [Goal.plan] at h
    split at h <;> cases h
    rfl
  | _ => simp [Goal.plan, simpleGoals?, typeRule?] at h

end Pdl
