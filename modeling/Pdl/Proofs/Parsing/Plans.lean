import Pdl.Proofs.Parsing.State

/-!
# What goals lead to

A plan looks at the kinds ahead and chooses among few lists of goals.
`Goal.readings` lists the kinds that may be read for a goal, each with the goals
that are then to be met, and `Goal.expansions` the goals that may take its
place.  What holds of these lists holds of every step of the parser
(`mem_readings_of_plan`, `mem_expansions_of_plan`).
-/

namespace Pdl

/-! ## The lists -/

/-- The kinds that begin a simple statement. -/
def simpleReadings : List (TokenKind × List Goal) :=
  [(.identifier, [.afterName]),
    (.keyword .put, [.expression, .mark .semicolon, .reduce .put]),
    (.keyword .get, [.name, .mark .semicolon, .reduce .get]),
    (.keyword .return, [.returned, .mark .semicolon, .reduce .return])]

/-- The kinds that are types, with their rules. -/
def typeKinds : List (TokenKind × Rule) :=
  [(.keyword .int, .typeInt), (.keyword .boolean, .typeBoolean), (.keyword .string, .typeString)]

/-- The kinds that are types, with the goals that follow one. -/
def typeReadings (goals : List Goal) : List (TokenKind × List Goal) :=
  typeKinds.map fun p => (p.1, .reduce p.2 :: goals)

/-- The kinds that may be read for a goal, each with the goals that follow it. -/
def Goal.readings : Goal → List (TokenKind × List Goal)
  | .token k => [(k, [])]
  | .simple => simpleReadings
  | .afterName =>
      [(.operator .assign, [.expression, .mark .semicolon, .reduce .assign]),
        (.operator .plusAssign, [.expression, .mark .semicolon, .reduce .addAssign]),
        (.punctuation .openParen,
          [.arguments, .mark .closeParen, .mark .semicolon, .reduce .callStatement])]
  | .afterType => [(.operator .assign, [.expression, .mark .semicolon, .reduce .declareInit])]
  | .type => typeReadings []
  | .result => (.keyword .void, [.reduce .resultVoid]) :: typeReadings [.reduce .resultType]
  | .parameters =>
      (.keyword .void, [.reduce .parametersVoid]) :: typeReadings [.name, .moreParameters 0]
  | .moreParameters n => [(.punctuation .comma, [.type, .name, .moreParameters (n + 1)])]
  | .moreEqual => [(.operator .equal, [.sum, .reduce .equal, .moreEqual])]
  | .moreSum => [(.operator .plus, [.operand, .reduce .add, .moreSum])]
  | .operand => [(.operator .not, [.primary, .reduce .not])]
  | .primary =>
      [(.identifier, [.mark .openParen, .arguments, .mark .closeParen, .reduce .call]),
        (.identifier, [.reduce .variable]),
        (.punctuation .openParen, [.expression, .mark .closeParen, .reduce .parenthesised]),
        (.integer, [.reduce .integer]), (.string, [.reduce .string])]
  | .moreArguments n => [(.punctuation .comma, [.expression, .moreArguments (n + 1)])]
  | _ => []

/-- The goals that may take the place of a goal. -/
def Goal.expansions : Goal → List (List Goal)
  | .afterType => [[.mark .semicolon, .reduce .declare]]
  | .moreParameters n =>
      [.reduce .parametersEnd :: reduceTimes n .parametersMore ++ [.reduce .parameters]]
  | .expression => [[.sum, .reduce .equalOperand, .moreEqual]]
  | .sum => [[.operand, .reduce .addOperand, .moreSum]]
  | .moreEqual | .moreSum => [[]]
  | .operand => [[.primary, .reduce .notOperand]]
  | .arguments => [[.reduce .argumentsNone], [.expression, .moreArguments 0]]
  | .moreArguments n =>
      [.reduce .argumentsEnd :: reduceTimes n .argumentsMore ++ [.reduce .arguments]]
  | .returned => [[.reduce .returnNothing], [.expression, .reduce .returnValue]]
  | _ => []

/-- The kinds that begin a statement, each with the goals that follow it. -/
def statementReadings : List (TokenKind × List Goal) :=
  [(.keyword .if,
      [.mark .openParen, .expression, .mark .closeParen, .simple, .reduce .ifThen]),
    (.keyword .while,
      [.mark .openParen, .expression, .mark .closeParen, .mark .openBrace, .block,
        .mark .closeBrace, .reduce .whileDo]),
    (.keyword .let, [.name, .type, .afterType])]
    ++ simpleReadings.map fun p => (p.1, p.2 ++ [.reduce .simpleStatement])

/-- The kinds that begin a member of a list, each with the goals that follow it. -/
def memberReadings (inBlock : Bool) : List (TokenKind × List Goal) :=
  if inBlock then statementReadings.map fun p => (p.1, p.2 ++ [.tally .bodyStatement])
  else (.keyword .function, functionGoals ++ [.tally .programFunction]) ::
    statementReadings.map fun p => (p.1, p.2 ++ [.tally .programStatement])

/-! ## Plans -/

theorem mem_simpleReadings {k : TokenKind} {goals : List Goal}
    (h : simpleGoals? k = some goals) : (k, goals) ∈ simpleReadings := by
  cases k with
  | identifier =>
    cases h
    simp [simpleReadings]
  | keyword w =>
    cases w with
    | put | get | «return» =>
      cases h
      simp [simpleReadings]
    | _ => cases h
  | _ => cases h

theorem mem_typeReadings {k : TokenKind} {r : Rule} (h : typeRule? k = some r)
    (goals : List Goal) : (k, .reduce r :: goals) ∈ typeReadings goals := by
  refine List.mem_map_of_mem (f := fun p : TokenKind × Rule => (p.1, Goal.reduce p.2 :: goals))
    (a := (k, r)) ?_
  cases k with
  | keyword w =>
    cases w with
    | int | boolean | string =>
      cases h
      simp [typeKinds]
    | _ => cases h
  | _ => cases h

/-- What is read for a goal, and what follows it, is in the list. -/
theorem mem_readings_of_plan {g : Goal} {k : TokenKind} {ks : List TokenKind}
    {goals : List Goal} (h : g.plan (k :: ks) = .shift goals) : (k, goals) ∈ g.readings := by
  cases g with
  | simple =>
    simp only [Goal.plan] at h
    split at h
    · rename_i hk
      cases h
      exact mem_simpleReadings hk
    · cases h
  | type =>
    simp only [Goal.plan] at h
    split at h
    · rename_i hk
      cases h
      exact mem_typeReadings hk []
    · cases h
  | result | parameters =>
    simp only [Goal.plan] at h
    split at h
    · rename_i hk
      cases h
      cases hk
      exact .head _
    · split at h
      · rename_i hk
        cases h
        exact .tail _ (mem_typeReadings hk _)
      · cases h
  | primary =>
    simp only [Goal.plan] at h
    split at h
    all_goals try cases h
    all_goals
      rename_i hk
      cases hk
      simp [Goal.readings]
  | arguments | returned =>
    simp only [Goal.plan] at h
    split at h <;> cases h
  | reduce | tally | block | expression | sum => cases h
  | afterName =>
    simp only [Goal.plan] at h
    split at h
    all_goals try cases h
    all_goals
      rename_i hk
      cases hk
      simp [Goal.readings]
  | _ =>
    simp only [Goal.plan] at h
    split at h
    · rename_i hk
      cases h
      cases hk
      exact .head _
    · cases h

/-- What takes the place of a goal is in the list. -/
theorem mem_expansions_of_plan {g : Goal} {ahead : List TokenKind} {goals : List Goal}
    (h : g.plan ahead = .expand goals) : goals ∈ g.expansions := by
  cases g with
  | expression | sum =>
    cases h
    exact .head _
  | arguments | returned =>
    simp only [Goal.plan] at h
    split at h <;> cases h <;> simp [Goal.expansions]
  | afterType | moreParameters | moreEqual | moreSum | operand | moreArguments =>
    simp only [Goal.plan] at h
    split at h
    · cases h
    · cases h
      exact .head _
  | _ =>
    simp only [Goal.plan] at h
    repeat' split at h
    all_goals cases h

theorem mem_statementReadings {k : TokenKind} {goals : List Goal}
    (h : statementGoals? k = some goals) : (k, goals) ∈ statementReadings := by
  have hsimple : (simpleGoals? k).map (· ++ [.reduce .simpleStatement]) = some goals →
      (k, goals) ∈ statementReadings := by
    intro hk
    obtain ⟨hs, hhs, rfl⟩ := Option.map_eq_some_iff.1 hk
    exact List.mem_append_right _ (List.mem_map_of_mem (mem_simpleReadings hhs))
  cases k with
  | keyword w =>
    cases w with
    | «if» | «while» | «let» =>
      cases h
      simp [statementReadings]
    | _ => exact hsimple h
  | _ => exact hsimple h

/-- What begins a member, and what follows it, is in the list. -/
theorem mem_memberReadings {inBlock : Bool} {k : TokenKind} {goals : List Goal}
    (h : memberGoals? inBlock k = some goals) : (k, goals) ∈ memberReadings inBlock := by
  cases inBlock with
  | true =>
    rw [memberGoals?, if_pos rfl, Option.map_eq_some_iff] at h
    obtain ⟨gs, hgs, rfl⟩ := h
    rw [memberReadings, if_pos rfl]
    exact List.mem_map_of_mem (mem_statementReadings hgs)
  | false =>
    rw [memberGoals?, if_neg (by decide)] at h
    rw [memberReadings, if_neg (by decide)]
    split at h
    · rename_i hk
      cases h
      rw [hk]
      exact .head _
    · obtain ⟨gs, hgs, rfl⟩ := Option.map_eq_some_iff.1 h
      exact List.mem_cons_of_mem _ (List.mem_map_of_mem (mem_statementReadings hgs))

end Pdl
