import Pdl.Proofs.Grammar.Tree
import Pdl.Proofs.Parsing.Reading

/-!
# Reading phrases

The parser reads every phrase of the grammar.  In front of the kinds of a
phrase and of a kind that cannot continue it, the goal of the phrase is met by
reading exactly these kinds.

Comparison and addition are left-recursive in the grammar and loops in the
parser.  So reading an expression leaves the goal to look for further operands
(`passes_expression`, `passes_sum`); it is met where no operator follows.

The trees of phrases are taken apart by the rule at their root, and the proofs
are inductions on the number of rules in them.
-/

namespace Pdl

/-! ## Derivations by size -/

/-- Trees with the roots `u`, the leaves `w` and `size` inner nodes. -/
def Spans (u : List GrammarSymbol) (w : List TokenKind) (size : Nat) : Prop :=
  ∃ b ps rs, Yields b u ps rs ∧ kindsOf ps = w ∧ rs.length = size

theorem Yields.spans {b : Bool} {u : List GrammarSymbol} {ps : List Piece} {rs : List Rule}
    (h : Yields b u ps rs) : Spans u (kindsOf ps) rs.length :=
  ⟨b, ps, rs, h, rfl, rfl⟩

namespace Spans

variable {u : List GrammarSymbol} {w : List TokenKind} {size : Nat}

theorem nil_inv (h : Spans [] w size) : w = [] := by
  obtain ⟨b, ps, rs, h, rfl, rfl⟩ := h
  obtain ⟨rfl, rfl⟩ := h.nil_inv
  rfl

theorem terminal_inv {k : TokenKind} (h : Spans (.terminal k :: u) w size) :
    ∃ v, w = k :: v ∧ Spans u v size := by
  obtain ⟨b, ps, rs, h, rfl, rfl⟩ := h
  obtain ⟨qs, rfl, hu⟩ := h.terminal_inv
  exact ⟨kindsOf qs, rfl, hu.spans⟩

theorem nonterminal_inv {n : Nonterminal} (h : Spans (.nonterminal n :: u) w size) :
    ∃ v x i j, Spans [.nonterminal n] v i ∧ Spans u x j ∧ w = v ++ x ∧ i + j = size := by
  obtain ⟨b, ps, rs, h, rfl, rfl⟩ := h
  obtain ⟨ps₁, ps₂, rs₁, rs₂, h₁, h₂, rfl, rfl⟩ := h.nonterminal_inv
  exact ⟨_, _, _, _, h₁.spans, h₂.spans, kindsOf_append ps₁ ps₂, by simp⟩

/-- The rule at the root. -/
theorem rule_inv {n : Nonterminal} (hn : (n == .statement) = false)
    (h : Spans [.nonterminal n] w size) :
    ∃ (r : Rule) (i : Nat), r.lhs = n ∧ Spans r.rhs w i ∧ i < size := by
  obtain ⟨b, ps, rs, h, rfl, rfl⟩ := h
  obtain ⟨r, ss, hr, hrhs, rfl⟩ := h.rule_inv hn
  exact ⟨r, ss.length, hr, hrhs.spans, by simp⟩

end Spans

/-! ## The first kind of an expression -/

/-- Whether an expression may begin with the kind. -/
def opensExpression : TokenKind → Bool
  | .identifier | .integer | .string | .operator .not | .punctuation .openParen => true
  | _ => false

/-- Whether what the symbol derives is the beginning of an expression. -/
def GrammarSymbol.opensExpression : GrammarSymbol → Bool
  | terminal k => Pdl.opensExpression k
  | nonterminal n => n ∈ [Nonterminal.expression, .sum, .operand, .primary]

theorem Rule.opensExpression_head {r : Rule}
    (h : (GrammarSymbol.nonterminal r.lhs).opensExpression = true) :
    ∃ s u, r.rhs = s :: u ∧ s.opensExpression = true := by
  cases r <;> first
    | exact absurd h (by decide)
    | exact ⟨_, _, rfl, by decide⟩

theorem Yields.opensExpression {b : Bool} {u : List GrammarSymbol} {ps : List Piece}
    {rs : List Rule} (h : Yields b u ps rs) {s : GrammarSymbol} {v : List GrammarSymbol}
    (hu : u = s :: v) (hs : s.opensExpression = true) :
    ∃ k w, kindsOf ps = k :: w ∧ Pdl.opensExpression k = true := by
  induction h generalizing s v with
  | nil => cases hu
  | @terminal _ _ ps _ k _ _ =>
    cases hu
    exact ⟨k, kindsOf ps, rfl, hs⟩
  | @rule _ _ _ ps qs _ _ r hr _ _ ih _ =>
    cases hu
    subst hr
    obtain ⟨s, v, hrhs, hs⟩ := Rule.opensExpression_head hs
    obtain ⟨k, w, hk, hopens⟩ := ih hrhs hs
    exact ⟨k, w ++ kindsOf qs, by simp [hk], hopens⟩
  | malformed _ _ _ =>
    cases hu
    cases hs

theorem Spans.opensExpression {n : Nonterminal} {w : List TokenKind} {size : Nat}
    (h : Spans [.nonterminal n] w size)
    (hn : (GrammarSymbol.nonterminal n).opensExpression = true) :
    ∃ k v, w = k :: v ∧ Pdl.opensExpression k = true := by
  obtain ⟨b, ps, rs, h, rfl, rfl⟩ := h
  exact h.opensExpression rfl hn

/-- An operand of a negation begins with no further negation. -/
theorem Spans.primary_head {w : List TokenKind} {size : Nat}
    (h : Spans [.nonterminal .primary] w size) : ∃ k v, w = k :: v ∧ k ≠ .operator .not := by
  obtain ⟨r, i, hr, hrhs, -⟩ := h.rule_inv rfl
  cases r with
  | «variable» | parenthesised | call | integer | string =>
    obtain ⟨v, rfl, -⟩ := hrhs.terminal_inv
    exact ⟨_, v, rfl, by decide⟩
  | _ => cases hr

/-! ## Reading without regard to the rules -/

/-- Reading within a statement, whatever rules it records. -/
def Passes (gs : List Goal) (ks : List TokenKind) (gs' : List Goal) (ks' : List TokenKind) :
    Prop := ∃ rs, Reads gs ks rs gs' ks'

namespace Passes

variable {g : Goal} {gs gs' gs'' goals : List Goal} {k : TokenKind} {ks ks' ks'' : List TokenKind}

theorem refl : Passes gs ks gs ks := ⟨[], .refl⟩

theorem trans (h : Passes gs ks gs' ks') (h' : Passes gs' ks' gs'' ks'') :
    Passes gs ks gs'' ks'' := by
  obtain ⟨rs, h⟩ := h
  obtain ⟨ss, h'⟩ := h'
  exact ⟨rs ++ ss, h.trans h'⟩

theorem shift (goals : List Goal) (hp : g.plan (k :: ks) = .shift goals)
    (h : Passes (goals ++ gs) ks gs' ks') :
    Passes (g :: gs) (k :: ks) gs' ks' := by
  obtain ⟨rs, h⟩ := h
  exact ⟨rs, .shift hp h⟩

theorem expand (goals : List Goal) (hp : g.plan ks = .expand goals)
    (h : Passes (goals ++ gs) ks gs' ks') :
    Passes (g :: gs) ks gs' ks' := by
  obtain ⟨rs, h⟩ := h
  exact ⟨rs, .expand hp h⟩

theorem complete {r : Rule} (h : Passes gs ks gs' ks') :
    Passes (.reduce r :: gs) ks gs' ks' := by
  obtain ⟨rs, h⟩ := h
  exact ⟨r :: rs, .complete h⟩

theorem token (h : Passes gs ks gs' ks') : Passes (.token k :: gs) (k :: ks) gs' ks' := by
  obtain ⟨rs, h⟩ := h
  exact ⟨_, (Reads.token k gs ks).trans h⟩

/-- No further operand of an addition follows. -/
theorem moreSum (hk : k ≠ .operator .plus) (h : Passes gs (k :: ks) gs' ks') :
    Passes (.moreSum :: gs) (k :: ks) gs' ks' :=
  .expand [] (by simp [Goal.plan, hk]) h

/-- No further operand of a comparison follows. -/
theorem moreEqual (hk : k ≠ .operator .equal) (h : Passes gs (k :: ks) gs' ks') :
    Passes (.moreEqual :: gs) (k :: ks) gs' ks' :=
  .expand [] (by simp [Goal.plan, hk]) h

end Passes

/-! ## Expressions -/

mutual

theorem passes_expression {w : List TokenKind} {size : Nat}
    (h : Spans [.nonterminal .expression] w size) {k : TokenKind}
    (hcall : k ≠ .punctuation .openParen) (hplus : k ≠ .operator .plus) (gs : List Goal)
    (ks : List TokenKind) :
    Passes (.expression :: gs) (w ++ k :: ks) (.moreEqual :: gs) (k :: ks) := by
  obtain ⟨r, i, hr, hrhs, hi⟩ := h.rule_inv rfl
  cases r with
  | equal =>
    obtain ⟨v, x, i₁, j, hleft, hs₁, rfl, hij⟩ := hrhs.nonterminal_inv
    obtain ⟨x, rfl, hright⟩ := hs₁.terminal_inv
    have h₁ : i₁ < size := by omega
    have h₂ : j < size := by omega
    rw [List.append_assoc]
    refine (passes_expression hleft (by decide) (by decide) gs _).trans ?_
    refine .shift [.sum, .reduce .equal, .moreEqual] rfl ?_
    exact (passes_sum hright hcall _ ks).trans (.moreSum hplus (.complete .refl))
  | equalOperand =>
    refine .expand [.sum, .reduce .equalOperand, .moreEqual] rfl ?_
    exact (passes_sum hrhs hcall _ ks).trans (.moreSum hplus (.complete .refl))
  | _ => cases hr
termination_by size

theorem passes_sum {w : List TokenKind} {size : Nat} (h : Spans [.nonterminal .sum] w size)
    {k : TokenKind} (hcall : k ≠ .punctuation .openParen) (gs : List Goal)
    (ks : List TokenKind) :
    Passes (.sum :: gs) (w ++ k :: ks) (.moreSum :: gs) (k :: ks) := by
  obtain ⟨r, i, hr, hrhs, hi⟩ := h.rule_inv rfl
  cases r with
  | add =>
    obtain ⟨v, x, i₁, j, hleft, hs₁, rfl, hij⟩ := hrhs.nonterminal_inv
    obtain ⟨x, rfl, hright⟩ := hs₁.terminal_inv
    have h₁ : i₁ < size := by omega
    have h₂ : j < size := by omega
    rw [List.append_assoc]
    refine (passes_sum hleft (by decide) gs _).trans ?_
    refine .shift [.operand, .reduce .add, .moreSum] rfl ?_
    exact (passes_operand hright hcall _ ks).trans (.complete .refl)
  | addOperand =>
    refine .expand [.operand, .reduce .addOperand, .moreSum] rfl ?_
    exact (passes_operand hrhs hcall _ ks).trans (.complete .refl)
  | _ => cases hr
termination_by size

theorem passes_operand {w : List TokenKind} {size : Nat}
    (h : Spans [.nonterminal .operand] w size) {k : TokenKind}
    (hcall : k ≠ .punctuation .openParen) (gs : List Goal) (ks : List TokenKind) :
    Passes (.operand :: gs) (w ++ k :: ks) gs (k :: ks) := by
  obtain ⟨r, i, hr, hrhs, hi⟩ := h.rule_inv rfl
  cases r with
  | not =>
    obtain ⟨v, rfl, hs₁⟩ := hrhs.terminal_inv
    refine .shift [.primary, .reduce .not] rfl ?_
    exact (passes_primary hs₁ hcall _ ks).trans (.complete .refl)
  | notOperand =>
    refine .expand [.primary, .reduce .notOperand] ?_ ?_
    · obtain ⟨k', v, rfl, hk'⟩ := hrhs.primary_head
      simp [Goal.plan, hk']
    · exact (passes_primary hrhs hcall _ ks).trans (.complete .refl)
  | _ => cases hr
termination_by size

theorem passes_primary {w : List TokenKind} {size : Nat}
    (h : Spans [.nonterminal .primary] w size) {k : TokenKind}
    (hcall : k ≠ .punctuation .openParen) (gs : List Goal) (ks : List TokenKind) :
    Passes (.primary :: gs) (w ++ k :: ks) gs (k :: ks) := by
  obtain ⟨r, i, hr, hrhs, hi⟩ := h.rule_inv rfl
  cases r with
  | «variable» =>
    obtain ⟨v, rfl, hs₁⟩ := hrhs.terminal_inv
    obtain rfl := hs₁.nil_inv
    refine .shift [.reduce .variable] ?_ (.complete .refl)
    simp only [Goal.plan]
    split
    · rename_i hks
      cases hks
      exact absurd rfl hcall
    · rfl
    all_goals simp_all
  | parenthesised =>
    obtain ⟨v, rfl, hs₁⟩ := hrhs.terminal_inv
    obtain ⟨v, x, i₁, j, hinner, hs₂, rfl, hij⟩ := hs₁.nonterminal_inv
    obtain ⟨x, rfl, hs₃⟩ := hs₂.terminal_inv
    obtain rfl := hs₃.nil_inv
    have h₁ : i₁ < size := by omega
    rw [List.cons_append, List.append_assoc]
    refine .shift [.expression, .mark .closeParen, .reduce .parenthesised] rfl ?_
    refine (passes_expression hinner (by decide) (by decide) _ _).trans ?_
    exact .moreEqual (by decide) (.token (.complete .refl))
  | call =>
    obtain ⟨v, rfl, hs₁⟩ := hrhs.terminal_inv
    obtain ⟨v, rfl, hs₂⟩ := hs₁.terminal_inv
    obtain ⟨v, x, i₁, j, hinner, hs₃, rfl, hij⟩ := hs₂.nonterminal_inv
    obtain ⟨x, rfl, hs₄⟩ := hs₃.terminal_inv
    obtain rfl := hs₄.nil_inv
    have h₁ : i₁ < size := by omega
    rw [List.cons_append, List.cons_append, List.append_assoc]
    refine .shift [.mark .openParen, .arguments, .mark .closeParen, .reduce .call]
      rfl ?_
    refine .token ?_
    refine (passes_arguments hinner _ _).trans ?_
    exact .token (.complete .refl)
  | integer | string =>
    obtain ⟨v, rfl, hs₁⟩ := hrhs.terminal_inv
    obtain rfl := hs₁.nil_inv
    exact .shift [.reduce _] rfl (.complete .refl)
  | _ => cases hr
termination_by size

theorem passes_arguments {w : List TokenKind} {size : Nat}
    (h : Spans [.nonterminal .arguments] w size) (gs : List Goal) (ks : List TokenKind) :
    Passes (.arguments :: gs) (w ++ .punctuation .closeParen :: ks) gs
      (.punctuation .closeParen :: ks) := by
  obtain ⟨r, i, hr, hrhs, hi⟩ := h.rule_inv rfl
  cases r with
  | arguments =>
    obtain ⟨v, x, i₁, j, hfirst, hmore, rfl, hij⟩ := hrhs.nonterminal_inv
    have h₁ : i₁ + j < size := by omega
    refine .expand [.expression, .moreArguments 0] ?_ ?_
    · obtain ⟨k, v, rfl, hk⟩ := hfirst.opensExpression rfl
      have hk' : k ≠ .punctuation .closeParen := by
        rintro rfl
        cases hk
      simp [Goal.plan, hk']
    · rw [List.append_assoc]
      exact passes_argumentList hfirst hmore 0 gs ks
  | argumentsNone =>
    obtain rfl := hrhs.nil_inv
    exact .expand [.reduce .argumentsNone] rfl (.complete .refl)
  | _ => cases hr
termination_by size

/-- An argument and the further ones. -/
theorem passes_argumentList {v x : List TokenKind} {i j : Nat}
    (hfirst : Spans [.nonterminal .expression] v i)
    (hmore : Spans [.nonterminal .moreArguments] x j) (n : Nat) (gs : List Goal)
    (ks : List TokenKind) :
    Passes (.expression :: .moreArguments n :: gs) (v ++ (x ++ .punctuation .closeParen :: ks))
      gs (.punctuation .closeParen :: ks) := by
  obtain ⟨r, j', hr, hrhs, hj⟩ := hmore.rule_inv rfl
  have h₁ : i < i + j := by omega
  cases r with
  | argumentsMore =>
    obtain ⟨x, rfl, hs₁⟩ := hrhs.terminal_inv
    obtain ⟨v', x', i₂, j₂, hnext, hmore', rfl, hij⟩ := hs₁.nonterminal_inv
    have h₂ : i₂ + j₂ < i + j := by omega
    rw [List.cons_append, List.append_assoc]
    refine (passes_expression hfirst (by decide) (by decide) _ _).trans ?_
    refine .moreEqual (by decide) ?_
    refine .shift [.expression, .moreArguments (n + 1)] rfl ?_
    exact passes_argumentList hnext hmore' (n + 1) gs ks
  | argumentsEnd =>
    obtain rfl := hrhs.nil_inv
    refine (passes_expression hfirst (by decide) (by decide) _ _).trans ?_
    refine .moreEqual (by decide) ?_
    refine .expand (.reduce .argumentsEnd :: reduceTimes n .argumentsMore ++
      [.reduce .arguments]) rfl ?_
    exact ⟨_, Reads.listEnd .argumentsEnd .argumentsMore .arguments n gs _⟩
  | _ => cases hr
termination_by i + j

end

/-- An expression that no operator follows. -/
theorem passes_closedExpression {w : List TokenKind} {size : Nat}
    (h : Spans [.nonterminal .expression] w size) {k : TokenKind}
    (hk : k = .punctuation .semicolon ∨ k = .punctuation .closeParen) (gs : List Goal)
    (ks : List TokenKind) : Passes (.expression :: gs) (w ++ k :: ks) gs (k :: ks) := by
  rcases hk with rfl | rfl <;>
    exact (passes_expression h (by decide) (by decide) gs ks).trans
      (.moreEqual (by decide) .refl)

/-! ## Types and parameters -/

theorem Spans.type_inv {w : List TokenKind} {size : Nat}
    (h : Spans [.nonterminal .type] w size) : ∃ k r, w = [k] ∧ typeRule? k = some r := by
  obtain ⟨r, i, hr, hrhs, -⟩ := h.rule_inv rfl
  cases r with
  | typeInt | typeBoolean | typeString =>
    obtain ⟨v, rfl, hs₁⟩ := hrhs.terminal_inv
    obtain rfl := hs₁.nil_inv
    exact ⟨_, _, rfl, rfl⟩
  | _ => cases hr

theorem ne_void_of_typeRule {k : TokenKind} {r : Rule} (h : typeRule? k = some r) :
    k ≠ .keyword .void := by
  rintro rfl
  cases h

theorem passes_type {w : List TokenKind} {size : Nat} (h : Spans [.nonterminal .type] w size)
    (gs : List Goal) (ks : List TokenKind) : Passes (.type :: gs) (w ++ ks) gs ks := by
  obtain ⟨k, r, rfl, hk⟩ := h.type_inv
  exact .shift [.reduce r] (by simp [Goal.plan, hk]) (.complete .refl)

theorem passes_result {w : List TokenKind} {size : Nat}
    (h : Spans [.nonterminal .result] w size) (gs : List Goal) (ks : List TokenKind) :
    Passes (.result :: gs) (w ++ ks) gs ks := by
  obtain ⟨r, i, hr, hrhs, -⟩ := h.rule_inv rfl
  cases r with
  | resultType =>
    obtain ⟨k, q, rfl, hk⟩ := hrhs.type_inv
    have hvoid := ne_void_of_typeRule hk
    exact .shift [.reduce q, .reduce .resultType] (by simp [Goal.plan, hk, hvoid])
      (.complete (.complete .refl))
  | resultVoid =>
    obtain ⟨v, rfl, hs₁⟩ := hrhs.terminal_inv
    obtain rfl := hs₁.nil_inv
    exact .shift [.reduce .resultVoid] rfl (.complete .refl)
  | _ => cases hr

/-- Further parameters, up to the closing parenthesis. -/
theorem passes_moreParameters {w : List TokenKind} {size : Nat}
    (h : Spans [.nonterminal .moreParameters] w size) (n : Nat) (gs : List Goal)
    (ks : List TokenKind) :
    Passes (.moreParameters n :: gs) (w ++ .punctuation .closeParen :: ks) gs
      (.punctuation .closeParen :: ks) := by
  obtain ⟨r, i, hr, hrhs, hi⟩ := h.rule_inv rfl
  cases r with
  | parametersMore =>
    obtain ⟨v, rfl, hs₁⟩ := hrhs.terminal_inv
    obtain ⟨v, x, i₁, j, htype, hs₂, rfl, hij⟩ := hs₁.nonterminal_inv
    obtain ⟨x, rfl, hmore⟩ := hs₂.terminal_inv
    have h₁ : j < size := by omega
    rw [List.cons_append, List.append_assoc]
    refine .shift [.type, .name, .moreParameters (n + 1)] rfl ?_
    refine (passes_type htype _ _).trans (.token ?_)
    exact passes_moreParameters hmore (n + 1) gs ks
  | parametersEnd =>
    obtain rfl := hrhs.nil_inv
    refine .expand (.reduce .parametersEnd :: reduceTimes n .parametersMore ++
      [.reduce .parameters]) rfl ?_
    exact ⟨_, Reads.listEnd .parametersEnd .parametersMore .parameters n gs _⟩
  | _ => cases hr
termination_by size

theorem passes_parameters {w : List TokenKind} {size : Nat}
    (h : Spans [.nonterminal .parameters] w size) (gs : List Goal) (ks : List TokenKind) :
    Passes (.parameters :: gs) (w ++ .punctuation .closeParen :: ks) gs
      (.punctuation .closeParen :: ks) := by
  obtain ⟨r, i, hr, hrhs, -⟩ := h.rule_inv rfl
  cases r with
  | parameters =>
    obtain ⟨v, x, i₁, j, htype, hs₁, rfl, -⟩ := hrhs.nonterminal_inv
    obtain ⟨x, rfl, hmore⟩ := hs₁.terminal_inv
    obtain ⟨k, q, rfl, hk⟩ := htype.type_inv
    have hvoid := ne_void_of_typeRule hk
    refine .shift [.reduce q, .name, .moreParameters 0]
      (by simp [Goal.plan, hk, hvoid]) ?_
    exact .complete (.token (passes_moreParameters hmore 0 gs ks))
  | parametersVoid =>
    obtain ⟨v, rfl, hs₁⟩ := hrhs.terminal_inv
    obtain rfl := hs₁.nil_inv
    exact .shift [.reduce .parametersVoid] rfl (.complete .refl)
  | _ => cases hr

/-! ## Statements without parts that are statements -/

theorem passes_returned {w : List TokenKind} {size : Nat}
    (h : Spans [.nonterminal .returned] w size) (gs : List Goal) (ks : List TokenKind) :
    Passes (.returned :: gs) (w ++ .punctuation .semicolon :: ks) gs
      (.punctuation .semicolon :: ks) := by
  obtain ⟨r, i, hr, hrhs, -⟩ := h.rule_inv rfl
  cases r with
  | returnValue =>
    refine .expand [.expression, .reduce .returnValue] ?_ ?_
    · obtain ⟨k, v, rfl, hk⟩ := hrhs.opensExpression rfl
      have hk' : k ≠ .punctuation .semicolon := by
        rintro rfl
        cases hk
      simp [Goal.plan, hk']
    · exact (passes_closedExpression hrhs (.inl rfl) _ _).trans (.complete .refl)
  | returnNothing =>
    obtain rfl := hrhs.nil_inv
    exact .expand [.reduce .returnNothing] rfl (.complete .refl)
  | _ => cases hr

/-- A simple statement is read by the goals after its first kind. -/
theorem passes_simpleGoals {w : List TokenKind} {size : Nat}
    (h : Spans [.nonterminal .simple] w size) :
    ∃ k v goals, w = k :: v ∧ simpleGoals? k = some goals ∧
      ∀ gs ks, Passes (goals ++ gs) (v ++ ks) gs ks := by
  obtain ⟨r, i, hr, hrhs, -⟩ := h.rule_inv rfl
  cases r with
  | assign | addAssign =>
    obtain ⟨v, rfl, hs₁⟩ := hrhs.terminal_inv
    obtain ⟨v, rfl, hs₂⟩ := hs₁.terminal_inv
    obtain ⟨v, x, i₁, j, hvalue, hs₃, rfl, -⟩ := hs₂.nonterminal_inv
    obtain ⟨x, rfl, hs₄⟩ := hs₃.terminal_inv
    obtain rfl := hs₄.nil_inv
    refine ⟨_, _, [.afterName], rfl, rfl, ?_⟩
    intro gs ks
    simp only [List.cons_append, List.append_assoc]
    refine .shift [.expression, .mark .semicolon, .reduce _] rfl ?_
    refine (passes_closedExpression hvalue (.inl rfl) _ _).trans ?_
    exact .token (.complete .refl)
  | callStatement =>
    obtain ⟨v, rfl, hs₁⟩ := hrhs.terminal_inv
    obtain ⟨v, rfl, hs₂⟩ := hs₁.terminal_inv
    obtain ⟨v, x, i₁, j, hargs, hs₃, rfl, -⟩ := hs₂.nonterminal_inv
    obtain ⟨x, rfl, hs₄⟩ := hs₃.terminal_inv
    obtain ⟨x, rfl, hs₅⟩ := hs₄.terminal_inv
    obtain rfl := hs₅.nil_inv
    refine ⟨_, _, [.afterName], rfl, rfl, ?_⟩
    intro gs ks
    simp only [List.cons_append, List.append_assoc]
    refine .shift [.arguments, .mark .closeParen, .mark .semicolon,
      .reduce .callStatement] rfl ?_
    refine (passes_arguments hargs _ _).trans ?_
    exact .token (.token (.complete .refl))
  | put =>
    obtain ⟨v, rfl, hs₁⟩ := hrhs.terminal_inv
    obtain ⟨v, x, i₁, j, hvalue, hs₂, rfl, -⟩ := hs₁.nonterminal_inv
    obtain ⟨x, rfl, hs₃⟩ := hs₂.terminal_inv
    obtain rfl := hs₃.nil_inv
    refine ⟨_, _, _, rfl, rfl, ?_⟩
    intro gs ks
    rw [List.append_assoc]
    refine (passes_closedExpression hvalue (.inl rfl) _ _).trans ?_
    exact .token (.complete .refl)
  | get =>
    obtain ⟨v, rfl, hs₁⟩ := hrhs.terminal_inv
    obtain ⟨v, rfl, hs₂⟩ := hs₁.terminal_inv
    obtain ⟨v, rfl, hs₃⟩ := hs₂.terminal_inv
    obtain rfl := hs₃.nil_inv
    exact ⟨_, _, _, rfl, rfl, fun gs ks => .token (.token (.complete .refl))⟩
  | «return» =>
    obtain ⟨v, rfl, hs₁⟩ := hrhs.terminal_inv
    obtain ⟨v, x, i₁, j, hvalue, hs₂, rfl, -⟩ := hs₁.nonterminal_inv
    obtain ⟨x, rfl, hs₃⟩ := hs₂.terminal_inv
    obtain rfl := hs₃.nil_inv
    refine ⟨_, _, _, rfl, rfl, ?_⟩
    intro gs ks
    rw [List.append_assoc]
    refine (passes_returned hvalue _ _).trans ?_
    exact .token (.complete .refl)
  | _ => cases hr

theorem passes_simple {w : List TokenKind} {size : Nat}
    (h : Spans [.nonterminal .simple] w size) (gs : List Goal) (ks : List TokenKind) :
    Passes (.simple :: gs) (w ++ ks) gs ks := by
  obtain ⟨k, v, goals, rfl, hk, hpass⟩ := passes_simpleGoals h
  exact .shift goals (by simp [Goal.plan, hk]) (hpass gs ks)

end Pdl
