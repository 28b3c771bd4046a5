import Pdl.Proofs.Parsing.Handling
import Pdl.Proofs.Parsing.Phrases

/-!
# What the parser does with a whole program

The trees of a text say how the parser handles it, malformed statements
included: a statement (`handles_statement`), the body of a block
(`handles_body`), a function (`handles_function`) and a list of statements and
functions (`handles_program`) are each handled as their pieces and their rules
say.

A member of a list is read up to its end or up to the opening brace of its
block.  In the second case the body of the block is handled between two
statements of an inner list, and the rules of that list are recorded at the
closing brace (`handles_block`).  So statements and bodies are handled by
induction on the number of rules in their trees.
-/

namespace Pdl

/-! ## Members with and without a block -/

section

variable {s : ParseState} {k : TokenKind} {ks ks' : List TokenKind} {goals : List Goal}
  {ps : List Piece} {rs used : List Rule} {q r : Rule}

/-- A member that has no block. -/
theorem handles_line (hg : s.goals = []) (hr : s.rest = k :: ks)
    (hends : s.inBlock = true → endsBlock k = false) (hm : memberGoals? s.inBlock k = some goals)
    (h : Passes goals ks [.tally r] ks') (hc : Census [r] used) : Handles s ks' [] used := by
  obtain ⟨_, hread⟩ := h
  obtain ⟨qs, hqs, hs⟩ := exists_reaches_within hg hr hends hm hread
  have hcount := ParseState.step_of_advances
    (ParseState.Advances.count (s := { s with
      goals := [.tally r], rest := ks', rules := qs ++ s.rules }) rfl)
  refine ⟨[r], qs, [], hqs.append hc, .nil, ?_⟩
  exact hs.tail hcount

/-- The rules at the end of a block. -/
theorem reads_blockEnd (ms : List Rule) (q : Rule) (gs : List Goal) (ks : List TokenKind) :
    Reads (.reduce .bodyEnd :: ms.map .reduce ++ .mark .closeBrace :: .reduce q :: gs)
      (.punctuation .closeBrace :: ks) (.bodyEnd :: ms ++ [q]) gs ks := by
  have hlist := Reads.reduces (.bodyEnd :: ms) (.mark .closeBrace :: .reduce q :: gs)
    (.punctuation .closeBrace :: ks)
  have hbrace := Reads.token (.punctuation .closeBrace) (.reduce q :: gs) ks
  have hrule : Reads (.reduce q :: gs) ks [q] gs ks := .complete .refl
  have := hlist.trans (hbrace.trans hrule)
  simpa using this

/-- A block is left behind its closing brace when its body has been handled. -/
theorem exists_reaches_block {gs : List Goal}
    (hg : s.goals = .block :: .mark .closeBrace :: .reduce q :: gs)
    (hinner : ∀ t : ParseState, t.goals = [] → t.inBlock = true → t.rest = s.rest →
      Handles t (.punctuation .closeBrace :: ks) ps rs) :
    ∃ qs fs, Census qs rs ∧
      LieIn fs.reverse (faultRanges ks.length (ps ++ [.kind (.punctuation .closeBrace)])) ∧
      s.Reaches { s with
        goals := gs, rest := ks, rules := q :: (qs ++ s.rules), faults := fs ++ s.faults } := by
  have henter := ParseState.step_of_advances (ParseState.Advances.enter hg)
  obtain ⟨ms, qs, fs, hcensus, hf, hs⟩ := hinner { s with
    goals := [], members := []
    outer := ⟨s.members, .mark .closeBrace :: .reduce q :: gs⟩ :: s.outer } rfl rfl rfl
  have hleave := ParseState.step_of_advances
    (ParseState.Advances.leave (s := { s with
      goals := [], members := ms
      outer := ⟨s.members, .mark .closeBrace :: .reduce q :: gs⟩ :: s.outer
      rest := .punctuation .closeBrace :: ks
      rules := qs ++ s.rules, faults := fs ++ s.faults }) rfl rfl
      (fun j hj => by cases hj; rfl))
  have hend := (reads_blockEnd ms q gs ks).proceeds (s := { s with
    goals := .reduce .bodyEnd :: ms.map .reduce ++ .mark .closeBrace :: .reduce q :: gs
    rest := .punctuation .closeBrace :: ks
    rules := qs ++ s.rules, faults := fs ++ s.faults }) rfl rfl
  refine ⟨(.bodyEnd :: ms).reverse ++ qs, fs, ?_, ?_, ?_⟩
  · have hbody : Census [.bodyEnd] [] := .of_not_structural (by decide)
    refine (hbody.append hcensus).of_count ?_
    intro j
    simp only [List.count_append, List.count_reverse, List.count_cons, List.count_nil]
    omega
  · rw [faultRanges_append, ← List.append_nil fs.reverse]
    rw [List.length_cons, Nat.add_comm] at hf
    exact List.rel_append hf .nil
  · rw [List.append_nil] at hs
    have hbody : s.Reaches _ := .head henter hs
    have := (hbody.tail hleave).trans hend.reaches
    simpa using this

/-- A member that ends in a block. -/
theorem handles_block (ps : List Piece) (ks' : List TokenKind) (hg : s.goals = [])
    (hr : s.rest = k :: ks)
    (hends : s.inBlock = true → endsBlock k = false) (hm : memberGoals? s.inBlock k = some goals)
    (h : Passes goals ks [.block, .mark .closeBrace, .reduce q, .tally r]
      (kindsOf ps ++ .punctuation .closeBrace :: ks'))
    (hc : Census [q, r] used)
    (hinner : ∀ t : ParseState, t.goals = [] → t.inBlock = true →
      t.rest = kindsOf ps ++ .punctuation .closeBrace :: ks' →
        Handles t (.punctuation .closeBrace :: ks') ps rs) :
    Handles s ks' (ps ++ [.kind (.punctuation .closeBrace)]) (rs ++ used) := by
  obtain ⟨_, hread⟩ := h
  obtain ⟨qs₁, hqs, hs₁⟩ := exists_reaches_within hg hr hends hm hread
  obtain ⟨qs₂, fs, hcensus, hf, hs₂⟩ := exists_reaches_block (s := { s with
    goals := [.block, .mark .closeBrace, .reduce q, .tally r]
    rest := kindsOf ps ++ .punctuation .closeBrace :: ks'
    rules := qs₁ ++ s.rules }) rfl hinner
  have hcount := ParseState.step_of_advances
    (ParseState.Advances.count (s := { s with
      goals := [.tally r], rest := ks'
      rules := q :: (qs₂ ++ (qs₁ ++ s.rules)), faults := fs ++ s.faults }) rfl)
  refine ⟨[r], q :: (qs₂ ++ qs₁), fs, ?_, hf, ?_⟩
  · refine ((hqs.append hcensus).append hc).of_count ?_
    intro j
    simp only [List.count_append, List.count_cons, List.count_nil]
    omega
  · have := (hs₁.trans hs₂).tail hcount
    simpa using this

end

/-! ## Reading members -/

/-- A statement without a block is read by the goals after its first kind. -/
theorem passes_statementGoals {r : Rule} {w : List TokenKind} {size : Nat}
    (hr : r.lhs = .statement) (hblock : r ≠ .whileDo) (h : Spans r.rhs w size) :
    ∃ k v goals, w = k :: v ∧ statementGoals? k = some goals ∧
      ∀ gs ks, Passes (goals ++ gs) (v ++ ks) gs ks := by
  cases r with
  | ifThen =>
    obtain ⟨v, rfl, hs₁⟩ := h.terminal_inv
    obtain ⟨v, rfl, hs₂⟩ := hs₁.terminal_inv
    obtain ⟨v, x, i, j, hcondition, hs₃, rfl, -⟩ := hs₂.nonterminal_inv
    obtain ⟨x, rfl, hsimple⟩ := hs₃.terminal_inv
    refine ⟨_, _, _, rfl, rfl, ?_⟩
    intro gs ks
    simp only [List.cons_append, List.append_assoc]
    refine .token ((passes_closedExpression hcondition (.inr rfl) _ _).trans (.token ?_))
    exact (passes_simple hsimple _ ks).trans (.complete .refl)
  | whileDo => exact absurd rfl hblock
  | declare =>
    obtain ⟨v, rfl, hs₁⟩ := h.terminal_inv
    obtain ⟨v, rfl, hs₂⟩ := hs₁.terminal_inv
    obtain ⟨v, x, i, j, htype, hs₃, rfl, -⟩ := hs₂.nonterminal_inv
    obtain ⟨x, rfl, hs₄⟩ := hs₃.terminal_inv
    obtain rfl := hs₄.nil_inv
    refine ⟨_, _, _, rfl, rfl, ?_⟩
    intro gs ks
    simp only [List.cons_append, List.append_assoc]
    refine .token ((passes_type htype _ _).trans ?_)
    refine .expand [.mark .semicolon, .reduce .declare] rfl ?_
    exact .token (.complete .refl)
  | declareInit =>
    obtain ⟨v, rfl, hs₁⟩ := h.terminal_inv
    obtain ⟨v, rfl, hs₂⟩ := hs₁.terminal_inv
    obtain ⟨v, x, i, j, htype, hs₃, rfl, -⟩ := hs₂.nonterminal_inv
    obtain ⟨x, rfl, hs₄⟩ := hs₃.terminal_inv
    obtain ⟨x, y, i, j, hvalue, hs₅, rfl, -⟩ := hs₄.nonterminal_inv
    obtain ⟨y, rfl, hs₆⟩ := hs₅.terminal_inv
    obtain rfl := hs₆.nil_inv
    refine ⟨_, _, _, rfl, rfl, ?_⟩
    intro gs ks
    simp only [List.cons_append, List.append_assoc]
    refine .token ((passes_type htype _ _).trans ?_)
    refine .shift [.expression, .mark .semicolon, .reduce .declareInit] rfl ?_
    refine (passes_closedExpression hvalue (.inl rfl) _ _).trans ?_
    exact .token (.complete .refl)
  | simpleStatement =>
    obtain ⟨k, v, goals, rfl, hk, hpass⟩ := passes_simpleGoals h
    refine ⟨k, v, goals ++ [.reduce .simpleStatement], rfl, ?_, ?_⟩
    · cases k with
      | identifier => cases hk; rfl
      | keyword w => cases w <;> cases hk <;> rfl
      | _ => cases hk
    · intro gs ks
      rw [List.append_assoc]
      exact (hpass _ ks).trans (.complete .refl)
  | _ => cases hr

/-- The head of a function is read by the first goals after the word `function`. -/
theorem passes_head {w : List TokenKind} {size : Nat} (h : Spans [.nonterminal .head] w size) :
    ∃ v, w = .keyword .function :: v ∧ ∀ gs ks,
      Passes (functionGoals ++ gs) (v ++ .punctuation .openBrace :: ks)
        (.block :: .mark .closeBrace :: .reduce .function :: gs) ks := by
  obtain ⟨r, i, hr, hrhs, -⟩ := h.rule_inv rfl
  cases r with
  | functionHead =>
    obtain ⟨w₁, w₂, i, j, hname, hs₁, rfl, -⟩ := hrhs.nonterminal_inv
    obtain ⟨w₂, rfl, hs₂⟩ := hs₁.terminal_inv
    obtain ⟨w₂, x, i, j, hparameters, hs₃, rfl, -⟩ := hs₂.nonterminal_inv
    obtain ⟨x, rfl, hs₄⟩ := hs₃.terminal_inv
    obtain rfl := hs₄.nil_inv
    obtain ⟨q, i, hq, hs₅, -⟩ := hname.rule_inv rfl
    cases q with
    | functionName =>
      obtain ⟨v, rfl, hs₆⟩ := hs₅.terminal_inv
      obtain ⟨v, rfl, hresult⟩ := hs₆.terminal_inv
      refine ⟨_, List.cons_append, ?_⟩
      intro gs ks
      have hw : .identifier :: v ++ .punctuation .openParen ::
            (w₂ ++ [.punctuation .closeParen]) ++ .punctuation .openBrace :: ks
          = .identifier :: (v ++ .punctuation .openParen :: (w₂ ++
            .punctuation .closeParen :: .punctuation .openBrace :: ks)) := by simp
      rw [hw]
      refine .token ((passes_result hresult _ _).trans (.complete (.token ?_)))
      refine (passes_parameters hparameters _ _).trans ?_
      exact .token (.complete (.token .refl))
    | _ => cases hq
  | _ => cases hr

/-- No statement begins with a kind that ends the body of a block. -/
theorem endsBlock_of_statementGoals {k : TokenKind} {goals : List Goal}
    (h : statementGoals? k = some goals) : endsBlock k = false := by
  cases k with
  | identifier => rfl
  | keyword w => cases w <;> cases h <;> rfl
  | _ => cases h

/-- The rule by which a statement is added to a list. -/
def statementRule (inBlock : Bool) : Rule :=
  if inBlock then .bodyStatement else .programStatement

theorem memberGoals?_of_statementGoals {k : TokenKind} {goals : List Goal} (inBlock : Bool)
    (h : statementGoals? k = some goals) :
    memberGoals? inBlock k = some (goals ++ [.tally (statementRule inBlock)]) := by
  have hk : k ≠ .keyword .function := by
    rintro rfl
    cases h
  cases inBlock with
  | true => rw [memberGoals?, if_pos rfl, h]; rfl
  | false => rw [memberGoals?, if_neg (by decide), if_neg hk, h]; rfl

/-! ## Statements and functions -/

/-- A statement without a block is counted once. -/
theorem census_statementRule {r : Rule} (hr : r.lhs = .statement) (hblock : r ≠ .whileDo)
    (inBlock : Bool) : Census [statementRule inBlock] [r] := by
  cases r with
  | ifThen | declare | declareInit | simpleStatement =>
    cases inBlock <;> exact ⟨rfl, rfl, rfl, rfl⟩
  | whileDo => exact absurd rfl hblock
  | _ => cases hr

theorem census_whileDo (inBlock : Bool) : Census [.whileDo, statementRule inBlock] [.whileDo] := by
  cases inBlock <;> exact ⟨rfl, rfl, rfl, rfl⟩

theorem census_function : Census [.function, .programFunction] [.function] :=
  ⟨rfl, rfl, rfl, rfl⟩

/-- Symbols of phrases yield single kinds, and no rule that is counted. -/
theorem Yields.phrase_inv {b : Bool} {u : List GrammarSymbol} {ps : List Piece}
    {rs : List Rule} (h : Yields b u ps rs) (hu : ∀ s ∈ u, s.isPhrase = true) :
    ∃ w : List TokenKind, ps = w.map .kind ∧ Spans u w rs.length ∧ Census [] rs := by
  obtain ⟨⟨w, rfl⟩, hrs⟩ := h.phrase hu
  have hspans := h.spans
  rw [kindsOf_map_kind] at hspans
  exact ⟨w, rfl, hspans, .of_phrase hrs⟩

/-- A statement without a block is read as a whole. -/
theorem handles_statementLine {s : ParseState} {ks : List TokenKind} {ps : List Piece}
    {ss : List Rule} {r : Rule} (hr : r.lhs = .statement) (hblock : r ≠ .whileDo)
    (h : Yields s.inBlock r.rhs ps ss) (hg : s.goals = []) (hrest : s.rest = kindsOf ps ++ ks) :
    Handles s ks ps (ss ++ [r]) := by
  have hphrase : ∀ a ∈ r.rhs, a.isPhrase = true := by
    cases r with
    | ifThen | declare | declareInit | simpleStatement => decide
    | whileDo => exact absurd rfl hblock
    | _ => cases hr
  obtain ⟨w, rfl, hspans, hss⟩ := h.phrase_inv hphrase
  obtain ⟨k, v, goals, rfl, hk, hpass⟩ := passes_statementGoals hr hblock hspans
  rw [kindsOf_map_kind] at hrest
  have hline := handles_line hg hrest (fun _ => endsBlock_of_statementGoals hk)
    (memberGoals?_of_statementGoals s.inBlock hk) (hpass [.tally _] ks)
    (census_statementRule hr hblock s.inBlock)
  rw [← List.append_nil ((k :: v).map Piece.kind)]
  exact (hline.kinds (k :: v)).recount fun a ha => hss.append ha

/-- A loop is handled as its body is. -/
theorem handles_whileDo {s : ParseState} {ks : List TokenKind} {ps : List Piece}
    {ss : List Rule} (h : Yields s.inBlock Rule.whileDo.rhs ps ss) (hg : s.goals = [])
    (hrest : s.rest = kindsOf ps ++ ks)
    (hbody : ∀ (qs : List Piece) (rs : List Rule) (t : ParseState), rs.length ≤ ss.length →
      Yields s.inBlock [.nonterminal .body] qs rs → t.goals = [] → t.inBlock = true →
      t.rest = kindsOf qs ++ .punctuation .closeBrace :: ks →
        Handles t (.punctuation .closeBrace :: ks) qs rs) :
    Handles s ks ps (ss ++ [.whileDo]) := by
  obtain ⟨ps₁, rfl, hs₁⟩ := h.terminal_inv
  obtain ⟨ps₂, rfl, hs₂⟩ := hs₁.terminal_inv
  obtain ⟨ps₃, ps₄, ss₁, ss₂, hcondition, hs₃, rfl, rfl⟩ := hs₂.nonterminal_inv
  obtain ⟨ps₅, rfl, hs₄⟩ := hs₃.terminal_inv
  obtain ⟨ps₆, rfl, hs₅⟩ := hs₄.terminal_inv
  obtain ⟨qs, ps₈, rs, ss₄, hinner, hs₆, rfl, rfl⟩ := hs₅.nonterminal_inv
  obtain ⟨ps₉, rfl, hs₇⟩ := hs₆.terminal_inv
  obtain ⟨rfl, rfl⟩ := hs₇.nil_inv
  obtain ⟨w, rfl, hspans, hss₁⟩ := hcondition.phrase_inv (by decide)
  have hgoals : memberGoals? s.inBlock (.keyword .while) = _ :=
    memberGoals?_of_statementGoals s.inBlock rfl
  have hlength : rs.length ≤ (ss₁ ++ (rs ++ [])).length := by simp
  have hblock := handles_block qs ks hg
    (hrest.trans (by simp)) (fun _ => rfl) hgoals
    (.token ((passes_closedExpression hspans (.inr rfl) _ _).trans (.token (.token .refl))))
    (census_whileDo s.inBlock) fun t ht hb hr => hbody qs rs t hlength hinner ht hb hr
  have hall := hblock.kinds (.keyword .while :: .punctuation .openParen ::
    (w ++ [.punctuation .closeParen, .punctuation .openBrace]))
  have := hall.recount fun a ha => hss₁.append ha
  simpa using this

-- Both are proved by induction on the number of rules in the trees.  A malformed statement is
-- a leaf.
mutual

theorem handles_statement {s : ParseState} {ks : List TokenKind} {ps : List Piece}
    {rs : List Rule} (h : Yields s.inBlock [.nonterminal .statement] ps rs) (hg : s.goals = [])
    (hrest : s.rest = kindsOf ps ++ ks) : Handles s ks ps rs := by
  obtain ⟨r, ss, hr, hrhs, hrs⟩ | ⟨body, m, rfl, rfl⟩ := h.statement_inv
  · rw [hrs]
    by_cases hblock : r = .whileDo
    · subst hblock
      refine handles_whileDo hrhs hg hrest ?_
      intro qs rs' t hle hbody ht hb hr
      have hlt : rs'.length < rs.length := by
        rw [hrs, List.length_append]
        exact Nat.lt_succ_of_le hle
      exact handles_body hbody ht hb hr
    · exact handles_statementLine hr hblock hrhs hg hrest
  · refine handles_malformed m hg ?_
    simpa using hrest
termination_by rs.length

theorem handles_body {s : ParseState} {ks : List TokenKind} {ps : List Piece}
    {rs : List Rule} {b : Bool} (h : Yields b [.nonterminal .body] ps rs) (hg : s.goals = [])
    (hb : s.inBlock = true) (hrest : s.rest = kindsOf ps ++ ks) : Handles s ks ps rs := by
  obtain ⟨r, ss, hr, hrhs, hrs⟩ := h.rule_inv rfl
  rw [show (b || Nonterminal.body == .body) = true from Bool.or_true b] at hrhs
  rw [hrs]
  cases r with
  | bodyStatement =>
    obtain ⟨ps₁, ps₂, rs₁, rs₂, hfirst, hothers, rfl, rfl⟩ := hrhs.nonterminal_inv
    have hlt₁ : rs₁.length < rs.length := by
      rw [hrs]
      simp
    have hlt₂ : rs₂.length < rs.length := by
      rw [hrs]
      simp
      omega
    rw [← hb] at hfirst
    rw [kindsOf_append, List.append_assoc] at hrest
    have hlist := (handles_statement hfirst hg hrest).append fun t ht ho hr =>
      handles_body hothers ht (by rw [ParseState.inBlock, ho]; exact hb) hr
    exact hlist.recount fun a ha => ha.append_used ⟨rfl, rfl, rfl, rfl⟩
  | bodyEnd =>
    obtain ⟨rfl, rfl⟩ := hrhs.nil_inv
    exact (Handles.nil hg hrest).recount fun a ha => ha.append_used ⟨rfl, rfl, rfl, rfl⟩
  | _ => cases hr
termination_by rs.length

end

/-- A function is handled as its body is. -/
theorem handles_function {s : ParseState} {ks : List TokenKind} {ps : List Piece}
    {rs : List Rule} {b : Bool} (h : Yields b [.nonterminal .function] ps rs) (hg : s.goals = [])
    (hb : s.inBlock = false) (hrest : s.rest = kindsOf ps ++ ks) : Handles s ks ps rs := by
  obtain ⟨r, ss, hr, hrhs, rfl⟩ := h.rule_inv rfl
  cases r with
  | function =>
    obtain ⟨ps₁, ps₂, ss₁, ss₂, hhead, hs₁, rfl, rfl⟩ := hrhs.nonterminal_inv
    obtain ⟨ps₃, rfl, hs₂⟩ := hs₁.terminal_inv
    obtain ⟨qs, ps₄, rs, ss₄, hinner, hs₃, rfl, rfl⟩ := hs₂.nonterminal_inv
    obtain ⟨ps₅, rfl, hs₄⟩ := hs₃.terminal_inv
    obtain ⟨rfl, rfl⟩ := hs₄.nil_inv
    obtain ⟨w, rfl, hspans, hss₁⟩ := hhead.phrase_inv (by decide)
    obtain ⟨v, rfl, hpass⟩ := passes_head hspans
    have hgoals : memberGoals? s.inBlock (.keyword .function)
        = some (functionGoals ++ [.tally .programFunction]) := by
      rw [hb, memberGoals?, if_neg (by decide), if_pos rfl]
    have hends : s.inBlock = true → endsBlock (.keyword .function) = false := by
      intro hin
      rw [hb] at hin
      cases hin
    have hblock := handles_block qs ks hg
      (hrest.trans (by simp)) hends hgoals (hpass _ _) census_function
      fun t ht hin hrest' => handles_body hinner ht hin hrest'
    have hall := hblock.kinds (.keyword .function :: (v ++ [.punctuation .openBrace]))
    have := hall.recount fun a ha => hss₁.append ha
    simpa using this
  | _ => cases hr

/-- A list of statements and functions outside of all blocks. -/
theorem handles_program {s : ParseState} {ks : List TokenKind} {ps : List Piece}
    {rs : List Rule} (h : Yields false [.nonterminal .program] ps rs) (hg : s.goals = [])
    (hb : s.inBlock = false) (hrest : s.rest = kindsOf ps ++ ks) : Handles s ks ps rs := by
  obtain ⟨r, ss, hr, hrhs, hrs⟩ := h.rule_inv rfl
  rw [hrs]
  have hnext : ∀ t : ParseState, t.outer = s.outer → t.inBlock = false := by
    intro t ho
    rw [ParseState.inBlock, ho]
    exact hb
  cases r with
  | programStatement =>
    obtain ⟨ps₁, ps₂, rs₁, rs₂, hfirst, hothers, rfl, rfl⟩ := hrhs.nonterminal_inv
    have hlt : rs₂.length < rs.length := by
      rw [hrs]
      simp
      omega
    rw [kindsOf_append, List.append_assoc] at hrest
    have hfirst' : Yields s.inBlock [.nonterminal .statement] ps₁ rs₁ := by
      rw [hb]
      exact hfirst
    have hlist := (handles_statement hfirst' hg hrest).append fun t ht ho hr =>
      handles_program hothers ht (hnext t ho) hr
    exact hlist.recount fun a ha => ha.append_used ⟨rfl, rfl, rfl, rfl⟩
  | programFunction =>
    obtain ⟨ps₁, ps₂, rs₁, rs₂, hfirst, hothers, rfl, rfl⟩ := hrhs.nonterminal_inv
    have hlt : rs₂.length < rs.length := by
      rw [hrs]
      simp
      omega
    rw [kindsOf_append, List.append_assoc] at hrest
    have hlist := (handles_function hfirst hg hb hrest).append fun t ht ho hr =>
      handles_program hothers ht (hnext t ho) hr
    exact hlist.recount fun a ha => ha.append_used ⟨rfl, rfl, rfl, rfl⟩
  | programEnd =>
    obtain ⟨rfl, rfl⟩ := hrhs.nil_inv
    exact (Handles.nil hg hrest).recount fun a ha => ha.append_used ⟨rfl, rfl, rfl, rfl⟩
  | _ => cases hr
termination_by rs.length

end Pdl
