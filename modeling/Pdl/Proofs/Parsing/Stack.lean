import Pdl.Proofs.Grammar.Rightmost
import Pdl.Proofs.Parsing.Plans

/-!
# What the goals make of what has been read

What the parser has read of a statement is a list of symbols, the *stack*.  A
goal finds some symbols at the end of the stack (`Goal.before`) and leaves
others in their place (`Goal.after`), so a list of goals turns one stack into
another (`stackAfter?`).

Every plan keeps this promise.  A token that is read becomes a symbol of the
stack, and the goals that follow make of it what the goal promised
(`stackAfter?_of_shift`, `stackAfter?_of_expand`).

Every promise can be kept: behind any stack that the goals accept there is a
word that takes it to the stack that they promise (`exists_completion`).
-/

namespace Pdl

/-! ## Goals and stacks -/

/-- `n` further members of a list, each of the form `b`. -/
def furtherMembers (n : Nat) (b : List GrammarSymbol) : List GrammarSymbol :=
  (List.replicate n b).flatten

/-- A further parameter. -/
def furtherParameter : List GrammarSymbol :=
  [.terminal (.punctuation .comma), .nonterminal .type, .terminal .identifier]

/-- A further argument. -/
def furtherArgument : List GrammarSymbol :=
  [.terminal (.punctuation .comma), .nonterminal .expression]

/-- What a goal finds at the end of the stack.  A block finds its opening brace, so that it
is known to have been read. -/
def Goal.before : Goal → List GrammarSymbol
  | .reduce r => r.rhs
  | .block => [.terminal (.punctuation .openBrace)]
  | .afterName => [.terminal .identifier]
  | .afterType => [.terminal (.keyword .let), .terminal .identifier, .nonterminal .type]
  | .moreParameters n =>
      [.nonterminal .type, .terminal .identifier] ++ furtherMembers n furtherParameter
  | .moreEqual => [.nonterminal .expression]
  | .moreSum => [.nonterminal .sum]
  | .moreArguments n => [.nonterminal .expression] ++ furtherMembers n furtherArgument
  | _ => []

/-- What a goal leaves in its place. -/
def Goal.after : Goal → List GrammarSymbol
  | .token k => [.terminal k]
  | .reduce r => [.nonterminal r.lhs]
  | .tally _ => []
  | .block => [.terminal (.punctuation .openBrace), .nonterminal .body]
  | .simple | .afterName => [.nonterminal .simple]
  | .afterType => [.nonterminal .statement]
  | .type => [.nonterminal .type]
  | .result => [.nonterminal .result]
  | .parameters | .moreParameters _ => [.nonterminal .parameters]
  | .expression | .moreEqual => [.nonterminal .expression]
  | .sum | .moreSum => [.nonterminal .sum]
  | .operand => [.nonterminal .operand]
  | .primary => [.nonterminal .primary]
  | .arguments | .moreArguments _ => [.nonterminal .arguments]
  | .returned => [.nonterminal .returned]

/-- Whether the goal counts a member of a list. -/
def Goal.isTally : Goal → Bool
  | .tally _ => true
  | _ => false

/-- The stack that a list of goals makes of a stack, if it accepts it.  The goals do not
leave the statement they are in. -/
def stackAfter? : List Goal → List GrammarSymbol → Option (List GrammarSymbol)
  | [], σ => some σ
  | g :: gs, σ =>
      if g.isTally = false ∧ g.before <:+ σ
      then stackAfter? gs (σ.take (σ.length - g.before.length) ++ g.after)
      else none

@[simp] theorem stackAfter?_nil (σ : List GrammarSymbol) : stackAfter? [] σ = some σ := rfl

theorem stackAfter?_cons {g : Goal} (hg : g.isTally = false) (gs : List Goal)
    (δ : List GrammarSymbol) :
    stackAfter? (g :: gs) (δ ++ g.before) = stackAfter? gs (δ ++ g.after) := by
  simp [stackAfter?, hg]

/-- A stack that the goals accept ends in what the first one finds. -/
theorem stackAfter?_cons_inv {g : Goal} {gs : List Goal} {σ τ : List GrammarSymbol}
    (h : stackAfter? (g :: gs) σ = some τ) :
    g.isTally = false ∧ ∃ δ, σ = δ ++ g.before ∧ stackAfter? gs (δ ++ g.after) = some τ := by
  rw [stackAfter?] at h
  split at h
  · rename_i hg
    obtain ⟨δ, rfl⟩ := hg.2
    exact ⟨hg.1, δ, rfl, by simpa using h⟩
  · cases h

theorem stackAfter?_append_left {gs : List Goal} {σ τ : List GrammarSymbol}
    (h : stackAfter? gs σ = some τ) (a : List GrammarSymbol) :
    stackAfter? gs (a ++ σ) = some (a ++ τ) := by
  induction gs generalizing σ with
  | nil =>
    cases h
    rfl
  | cons g gs ih =>
    obtain ⟨hg, δ, rfl, hgs⟩ := stackAfter?_cons_inv h
    rw [← List.append_assoc, stackAfter?_cons hg, List.append_assoc]
    exact ih hgs

theorem stackAfter?_append {gs hs : List Goal} {σ τ υ : List GrammarSymbol}
    (h : stackAfter? gs σ = some τ) (k : stackAfter? hs τ = some υ) :
    stackAfter? (gs ++ hs) σ = some υ := by
  induction gs generalizing σ with
  | nil =>
    cases h
    exact k
  | cons g gs ih =>
    obtain ⟨hg, δ, rfl, hgs⟩ := stackAfter?_cons_inv h
    rw [List.cons_append, stackAfter?_cons hg]
    exact ih hgs

theorem stackAfter?_reduce (r : Rule) (δ : List GrammarSymbol) :
    stackAfter? [.reduce r] (δ ++ r.rhs) = some (δ ++ [.nonterminal r.lhs]) := by
  have hr : (Goal.reduce r).isTally = false := rfl
  exact stackAfter?_cons hr [] δ

/-! ## Lists that end on the right -/

theorem furtherMembers_succ (n : Nat) (b : List GrammarSymbol) :
    furtherMembers (n + 1) b = furtherMembers n b ++ b := by
  simp [furtherMembers, List.replicate_succ']

/-- The rules of a list that has one member `a` and any number of further members `b`: `r`
begins it, `m` adds a further member and `e` ends it. -/
structure ListRules (r m e : Rule) (a b : List GrammarSymbol) : Prop where
  first : r.rhs = a ++ [.nonterminal m.lhs]
  more : m.rhs = b ++ [.nonterminal m.lhs]
  last : e.rhs = []
  same : e.lhs = m.lhs

theorem parameterRules :
    ListRules .parameters .parametersMore .parametersEnd
      [.nonterminal .type, .terminal .identifier] furtherParameter := ⟨rfl, rfl, rfl, rfl⟩

theorem argumentRules :
    ListRules .arguments .argumentsMore .argumentsEnd [.nonterminal .expression]
      furtherArgument := ⟨rfl, rfl, rfl, rfl⟩

namespace ListRules

variable {r m e : Rule} {a b : List GrammarSymbol}

/-- Recording the rule of each further member. -/
theorem stackAfter?_reduceTimes (h : ListRules r m e a b) (n : Nat) :
    stackAfter? (reduceTimes n m) (furtherMembers n b ++ [.nonterminal m.lhs])
      = some [.nonterminal m.lhs] := by
  induction n with
  | zero => rfl
  | succ n ih =>
    have hs : furtherMembers (n + 1) b ++ [.nonterminal m.lhs]
        = furtherMembers n b ++ (Goal.reduce m).before := by
      rw [furtherMembers_succ, Goal.before, h.more, List.append_assoc]
    rw [hs, reduceTimes, List.replicate_succ, stackAfter?_cons rfl]
    exact ih

/-- The rules at the end of a list make it of its members. -/
theorem stackAfter?_listEnd (h : ListRules r m e a b) (n : Nat) :
    stackAfter? (.reduce e :: reduceTimes n m ++ [.reduce r]) (a ++ furtherMembers n b)
      = some [.nonterminal r.lhs] := by
  have hend := stackAfter?_reduce e (a ++ furtherMembers n b)
  have hmore := stackAfter?_append_left (h.stackAfter?_reduceTimes n) a
  have hfirst := stackAfter?_reduce r []
  rw [h.last, h.same, List.append_nil] at hend
  rw [← List.append_assoc] at hmore
  rw [h.first] at hfirst
  show stackAfter? ([.reduce e] ++ (reduceTimes n m ++ [.reduce r])) _ = _
  exact stackAfter?_append hend (stackAfter?_append hmore hfirst)

/-- Further members, in front of the rest of the list. -/
theorem derives_furtherMembers (h : ListRules r m e a b) (n : Nat) :
    Derives [.nonterminal m.lhs] (furtherMembers n b ++ [.nonterminal m.lhs]) := by
  induction n with
  | zero => exact .refl _
  | succ n ih =>
    have hstep := Expands.rule m (furtherMembers n b) []
    rw [h.more] at hstep
    refine ih.trans (.step hstep ?_)
    rw [furtherMembers_succ]
    simpa using Derives.refl _

/-- A list derives its members. -/
theorem derives_members (h : ListRules r m e a b) (n : Nat) :
    Derives [.nonterminal r.lhs] (a ++ furtherMembers n b) := by
  have hfirst := Expands.rule r [] []
  have hmore := (h.derives_furtherMembers n).append a []
  have hlast := Expands.rule e (a ++ furtherMembers n b) []
  rw [h.first] at hfirst
  rw [h.last, h.same] at hlast
  simp only [List.append_nil, List.nil_append, List.append_assoc] at hfirst hmore hlast
  exact .step hfirst (hmore.trans (.step hlast (.refl _)))

end ListRules

/-! ## Plans keep the promises -/

theorem isTally_of_readings {g : Goal} {p : TokenKind × List Goal} (h : p ∈ g.readings) :
    g.isTally = false := by
  cases g with
  | tally r => cases h
  | _ => rfl

theorem isTally_of_expansions {g : Goal} {goals : List Goal} (h : goals ∈ g.expansions) :
    g.isTally = false := by
  cases g with
  | tally r => cases h
  | _ => rfl

/-- A further comma takes a list behind `n` further members to the next one. -/
theorem stackAfter?_comma {a b : List GrammarSymbol} {member : List Goal} {n : Nat}
    (hb : stackAfter? member [.terminal (.punctuation .comma)] = some b) :
    stackAfter? member (a ++ furtherMembers n b ++ [.terminal (.punctuation .comma)])
      = some (a ++ furtherMembers (n + 1) b) := by
  rw [furtherMembers_succ, ← List.append_assoc]
  exact stackAfter?_append_left hb _

/-- What follows the next token makes of it, and of what the goal found, what it promised. -/
theorem stackAfter?_of_shift {g : Goal} {k : TokenKind} {ks : List TokenKind}
    {goals : List Goal} (h : g.plan (k :: ks) = .shift goals) :
    stackAfter? goals (g.before ++ [.terminal k]) = some g.after := by
  have hall : ∀ p ∈ g.readings, stackAfter? p.2 (g.before ++ [.terminal p.1]) = some g.after := by
    cases g with
    | token k =>
      intro p hp
      rw [List.mem_singleton.1 hp]
      rfl
    | moreParameters n =>
      intro p hp
      rw [List.mem_singleton.1 hp]
      have hs : stackAfter? [.type, .name]
          ((Goal.moreParameters n).before ++ [.terminal (.punctuation .comma)])
          = some (Goal.moreParameters (n + 1)).before := stackAfter?_comma (by decide)
      exact stackAfter?_append hs (by simp [stackAfter?, Goal.isTally, Goal.after])
    | moreArguments n =>
      intro p hp
      rw [List.mem_singleton.1 hp]
      have hs : stackAfter? [.expression]
          ((Goal.moreArguments n).before ++ [.terminal (.punctuation .comma)])
          = some (Goal.moreArguments (n + 1)).before := stackAfter?_comma (by decide)
      exact stackAfter?_append hs (by simp [stackAfter?, Goal.isTally, Goal.after])
    | reduce | tally | block | expression | sum | arguments | returned =>
      intro p hp
      cases hp
    | _ => decide
  exact hall _ (mem_readings_of_plan h)

/-- What stands in the place of a goal makes of what it found what it promised. -/
theorem stackAfter?_of_expand {g : Goal} {ahead : List TokenKind} {goals : List Goal}
    (h : g.plan ahead = .expand goals) : stackAfter? goals g.before = some g.after := by
  have hall : ∀ goals ∈ g.expansions, stackAfter? goals g.before = some g.after := by
    cases g with
    | moreParameters n =>
      intro goals hgoals
      rw [List.mem_singleton.1 hgoals]
      exact parameterRules.stackAfter?_listEnd n
    | moreArguments n =>
      intro goals hgoals
      rw [List.mem_singleton.1 hgoals]
      exact argumentRules.stackAfter?_listEnd n
    | token | reduce | tally =>
      intro goals hgoals
      cases hgoals
    | _ => decide
  exact hall _ (mem_expansions_of_plan h)

/-! ## Members of lists -/

/-- The rules that add a member to a list of statements: the body of a block or the
program. -/
def memberRules (inBlock : Bool) : List Rule :=
  if inBlock then [.bodyStatement] else [.programStatement, .programFunction]

/-- The nonterminal of a list of statements. -/
def listNonterminal (inBlock : Bool) : Nonterminal := if inBlock then .body else .program

/-- The member that a rule adds to a list. -/
def Rule.member (r : Rule) : List GrammarSymbol := r.rhs.take 1

theorem rhs_of_mem_memberRules {inBlock : Bool} {r : Rule} (h : r ∈ memberRules inBlock) :
    r.rhs = r.member ++ [.nonterminal (listNonterminal inBlock)] ∧
      r.lhs = listNonterminal inBlock := by
  cases inBlock with
  | true =>
    obtain rfl := List.mem_singleton.1 h
    decide
  | false =>
    rcases List.mem_cons.1 h with rfl | h
    · decide
    · obtain rfl := List.mem_singleton.1 h
      decide

/-- The goals make a member for the rule `r` of the stack, and then count it. -/
def Builds (goals : List Goal) (r : Rule) (σ : List GrammarSymbol) : Prop :=
  ∃ gs, goals = gs ++ [.tally r] ∧ stackAfter? gs σ = some r.member

namespace Builds

variable {g : Goal} {gs goals : List Goal} {r : Rule} {σ : List GrammarSymbol}

theorem tally_inv {q : Rule} (h : Builds (.tally q :: gs) r σ) :
    q = r ∧ gs = [] ∧ σ = r.member := by
  obtain ⟨hs, hgoals, hσ⟩ := h
  cases hs with
  | nil =>
    cases hgoals
    cases hσ
    exact ⟨rfl, rfl, rfl⟩
  | cons g hs =>
    cases hgoals
    cases (stackAfter?_cons_inv hσ).1

theorem cons_inv (hg : g.isTally = false) (h : Builds (g :: gs) r σ) :
    ∃ δ, σ = δ ++ g.before ∧ Builds gs r (δ ++ g.after) := by
  obtain ⟨hs, hgoals, hσ⟩ := h
  cases hs with
  | nil =>
    cases hgoals
    cases hg
  | cons g' hs =>
    cases hgoals
    obtain ⟨-, δ, rfl, hδ⟩ := stackAfter?_cons_inv hσ
    exact ⟨δ, rfl, hs, rfl, hδ⟩

/-- Goals in front of the others. -/
theorem append {σ' : List GrammarSymbol} (h : stackAfter? goals σ = some σ')
    (k : Builds gs r σ') : Builds (goals ++ gs) r σ := by
  obtain ⟨hs, rfl, hσ⟩ := k
  exact ⟨goals ++ hs, by simp, stackAfter?_append h hσ⟩

/-- The goals that keep the promise of a goal, in its place. -/
theorem replace (hg : g.isTally = false) (h : Builds (g :: gs) r σ) {a : List GrammarSymbol}
    (hgoals : stackAfter? goals (g.before ++ a) = some g.after) :
    Builds (goals ++ gs) r (σ ++ a) := by
  obtain ⟨δ, rfl, hgs⟩ := h.cons_inv hg
  rw [List.append_assoc]
  exact append (stackAfter?_append_left hgoals δ) hgs

/-- A token that is read becomes a symbol of the stack. -/
theorem shift {k : TokenKind} {ks : List TokenKind} (h : Builds (g :: gs) r σ)
    (hp : g.plan (k :: ks) = .shift goals) : Builds (goals ++ gs) r (σ ++ [.terminal k]) := by
  exact h.replace (isTally_of_readings (mem_readings_of_plan hp)) (stackAfter?_of_shift hp)

theorem expand {ahead : List TokenKind} (h : Builds (g :: gs) r σ)
    (hp : g.plan ahead = .expand goals) : Builds (goals ++ gs) r σ := by
  rw [← List.append_nil σ]
  exact h.replace (isTally_of_expansions (mem_expansions_of_plan hp))
    (by simpa using stackAfter?_of_expand hp)

/-- A rule that is recorded undoes a rightmost step, whatever word follows. -/
theorem complete {q : Rule} (h : Builds (.reduce q :: gs) r σ) :
    ∃ σ', Builds gs r σ' ∧
      ∀ w, expandLast? q (σ' ++ terminals w) = some (σ ++ terminals w) := by
  obtain ⟨δ, rfl, hgs⟩ := h.cons_inv rfl
  refine ⟨_, hgs, ?_⟩
  intro w
  exact expandLast?_eq_some_iff.2 ⟨δ, w, by simp [Goal.after], rfl⟩

end Builds

/-- The goals after the first token of a member make it of that token. -/
theorem builds_of_memberGoals {inBlock : Bool} {k : TokenKind} {goals : List Goal}
    (h : memberGoals? inBlock k = some goals) :
    ∃ r ∈ memberRules inBlock, Builds goals r [.terminal k] := by
  have hstatement : ∀ p ∈ statementReadings,
      stackAfter? p.2 [.terminal p.1] = some [.nonterminal .statement] := by decide
  have hmem := mem_memberReadings h
  cases inBlock with
  | true =>
    obtain ⟨p, hp, heq⟩ := List.mem_map.1 hmem
    cases heq
    exact ⟨.bodyStatement, by decide, p.2, rfl, hstatement p hp⟩
  | false =>
    rcases List.mem_cons.1 hmem with heq | hmem
    · cases heq
      exact ⟨.programFunction, by decide, functionGoals, rfl, by decide⟩
    · obtain ⟨p, hp, heq⟩ := List.mem_map.1 hmem
      cases heq
      exact ⟨.programStatement, by decide, p.2, rfl, hstatement p hp⟩

/-! ## Promises can be kept -/

/-- Behind what a goal finds there is a word that takes it to what the goal leaves. -/
theorem Goal.exists_completion {g : Goal} (hg : g.isTally = false) :
    ∃ v, Derives g.after (g.before ++ terminals v) := by
  cases g with
  | token k => exact ⟨[k], .refl _⟩
  | reduce r =>
    have := Expands.rule r [] []
    exact ⟨[], .step this (by simpa [Goal.before] using Derives.refl r.rhs)⟩
  | tally r => cases hg
  | block =>
    exact ⟨[], derives_of_expandAll? [.bodyEnd] rfl⟩
  | simple =>
    exact ⟨[.keyword .return, .punctuation .semicolon],
      derives_of_expandAll? [.return, .returnNothing] rfl⟩
  | afterName =>
    exact ⟨[.punctuation .openParen, .punctuation .closeParen, .punctuation .semicolon],
      derives_of_expandAll? [.callStatement, .argumentsNone] rfl⟩
  | afterType =>
    exact ⟨[.punctuation .semicolon], derives_of_expandAll? [.declare] rfl⟩
  | type => exact ⟨[.keyword .int], derives_of_expandAll? [.typeInt] rfl⟩
  | result => exact ⟨[.keyword .void], derives_of_expandAll? [.resultVoid] rfl⟩
  | parameters =>
    exact ⟨[.keyword .void], derives_of_expandAll? [.parametersVoid] rfl⟩
  | moreParameters n =>
    refine ⟨[], ?_⟩
    rw [terminals_nil, List.append_nil]
    exact parameterRules.derives_members n
  | expression =>
    exact ⟨[.integer],
      derives_of_expandAll? [.equalOperand, .addOperand, .notOperand, .integer] rfl⟩
  | moreEqual | moreSum => exact ⟨[], .refl _⟩
  | sum =>
    exact ⟨[.integer], derives_of_expandAll? [.addOperand, .notOperand, .integer] rfl⟩
  | operand =>
    exact ⟨[.integer], derives_of_expandAll? [.notOperand, .integer] rfl⟩
  | primary => exact ⟨[.integer], derives_of_expandAll? [.integer] rfl⟩
  | arguments => exact ⟨[], derives_of_expandAll? [.argumentsNone] rfl⟩
  | moreArguments n =>
    refine ⟨[], ?_⟩
    rw [terminals_nil, List.append_nil]
    exact argumentRules.derives_members n
  | returned => exact ⟨[], derives_of_expandAll? [.returnNothing] rfl⟩

/-- Behind a stack that the goals accept there is a word that takes it to the stack they
promise. -/
theorem exists_completion {gs : List Goal} {σ τ : List GrammarSymbol}
    (h : stackAfter? gs σ = some τ) : ∃ v, Derives τ (σ ++ terminals v) := by
  induction gs generalizing σ with
  | nil =>
    cases h
    exact ⟨[], by simpa using Derives.refl _⟩
  | cons g gs ih =>
    obtain ⟨hg, δ, rfl, hgs⟩ := stackAfter?_cons_inv h
    obtain ⟨v, hv⟩ := g.exists_completion hg
    obtain ⟨v', hv'⟩ := ih hgs
    refine ⟨v ++ v', hv'.trans ?_⟩
    simpa using hv.append δ (terminals v')

theorem Builds.exists_completion {goals : List Goal} {r : Rule} {σ : List GrammarSymbol}
    (h : Builds goals r σ) : ∃ v, Derives r.member (σ ++ terminals v) := by
  obtain ⟨gs, -, hσ⟩ := h
  exact Pdl.exists_completion hσ

end Pdl
