import Mathlib.Data.List.Forall2
import Pdl.Proofs.Grammar.Tree
import Pdl.Proofs.Parsing.Reading

/-!
# What the parser does with pieces of a text

`Handles s tail ps rs` says how a run goes on from the state `s`, between two
statements, in front of the pieces `ps` and the kinds `tail`: it comes to stand
between two statements again, in the same list and in front of `tail`.  It has
met one fault for each malformed piece, in order and inside that piece, and it
has recorded one rule for each statement, function and loop among the rules
`rs` of the trees (`Census`).

This holds of a single malformed statement (`handles_malformed`).  Reading it
stops before its semicolon has been read, or else it would be a statement, and
recovery skips to that semicolon and no further.
-/

namespace Pdl

/-! ## Counting rules -/

/-- The rules recorded by the parser have one for each statement, function and loop of the
rules used in trees. -/
structure Census (recorded used : List Rule) : Prop where
  /-- Statements are recorded when they are added to their list. -/
  statements : recorded.count .programStatement + recorded.count .bodyStatement
    = used.countP (·.lhs == .statement)
  /-- So are functions. -/
  members : recorded.count .programFunction = used.countP (·.lhs == .function)
  /-- Functions are recorded themselves too. -/
  functions : recorded.count .function = used.countP (·.lhs == .function)
  loops : recorded.count .whileDo = used.count .whileDo

namespace Census

theorem nil : Census [] [] := ⟨rfl, rfl, rfl, rfl⟩

theorem append {a b c d : List Rule} (h : Census a c) (k : Census b d) :
    Census (a ++ b) (c ++ d) where
  statements := by
    have := h.statements
    have := k.statements
    simp only [List.count_append, List.countP_append]
    omega
  members := by
    rw [List.count_append, List.countP_append, h.members, k.members]
  functions := by
    rw [List.count_append, List.countP_append, h.functions, k.functions]
  loops := by
    rw [List.count_append, List.count_append, h.loops, k.loops]

/-- Used rules that are not counted. -/
theorem append_used {a b c : List Rule} (h : Census a b) (k : Census [] c) :
    Census a (b ++ c) := by
  rw [← List.append_nil a]
  exact h.append k

/-- Only the numbers of the recorded rules count. -/
theorem of_count {a b c : List Rule} (h : Census a c) (hcount : ∀ r, b.count r = a.count r) :
    Census b c where
  statements := by
    rw [hcount, hcount]
    exact h.statements
  members := (hcount _).trans h.members
  functions := (hcount _).trans h.functions
  loops := (hcount _).trans h.loops

theorem of_not_structural {a : List Rule} (h : ∀ r ∈ a, r.isStructural = false) :
    Census a [] := by
  have hzero : ∀ q : Rule, q.isStructural = true → a.count q = 0 := by
    intro q hq
    refine List.count_eq_zero.2 ?_
    intro hmem
    rw [h q hmem] at hq
    cases hq
  constructor
  · rw [hzero _ rfl, hzero _ rfl]
    rfl
  · exact hzero _ rfl
  · exact hzero _ rfl
  · exact hzero _ rfl

theorem of_phrase {c : List Rule} (h : ∀ r ∈ c, r.lhs.isPhrase = true) : Census [] c := by
  have hzero : ∀ n : Nonterminal, n.isPhrase = false → c.countP (·.lhs == n) = 0 := by
    intro n hn
    refine List.countP_eq_zero.2 ?_
    intro r hr heq
    rw [beq_iff_eq] at heq
    rw [← heq, h r hr] at hn
    cases hn
  have hloops : c.count .whileDo = 0 := by
    refine List.count_eq_zero.2 ?_
    intro hmem
    cases h _ hmem
  exact ⟨(hzero _ rfl).symm, (hzero _ rfl).symm, (hzero _ rfl).symm, hloops.symm⟩

end Census

/-! ## Faults and pieces -/

/-- For each malformed piece, how many kinds are left behind it and in front of it, if
`after` kinds follow the pieces. -/
def faultRanges (after : Nat) : List Piece → List (Nat × Nat)
  | [] => []
  | .kind _ :: ps => faultRanges after ps
  | .malformed body :: ps =>
      ((kindsOf ps).length + after, (kindsOf ps).length + after + body.length + 1)
        :: faultRanges after ps

/-- The faults lie in the ranges, one in each. -/
def LieIn (faults : List SyntaxFault) (ranges : List (Nat × Nat)) : Prop :=
  List.Forall₂ (fun f range => range.1 < f.left ∧ f.left ≤ range.2) faults ranges

theorem faultRanges_append (after : Nat) (ps qs : List Piece) :
    faultRanges after (ps ++ qs) =
      faultRanges ((kindsOf qs).length + after) ps ++ faultRanges after qs := by
  induction ps with
  | nil => rfl
  | cons p ps ih =>
    cases p with
    | kind k => exact ih
    | malformed body =>
      rw [List.cons_append, faultRanges, faultRanges, ih, kindsOf_append, List.length_append,
        Nat.add_assoc, List.cons_append]

@[simp] theorem faultRanges_map_kind (after : Nat) (w : List TokenKind) :
    faultRanges after (w.map .kind) = [] := by
  induction w with
  | nil => rfl
  | cons k w ih => exact ih

/-! ## Handling -/

/-- A run goes on from between two statements to between two statements. -/
def Handles (s : ParseState) (tail : List TokenKind) (ps : List Piece) (rs : List Rule) :
    Prop :=
  ∃ ms qs fs, Census (qs ++ ms) rs ∧ LieIn fs.reverse (faultRanges tail.length ps) ∧
    s.Reaches { s with
      goals := []
      members := ms ++ s.members
      rest := tail
      rules := qs ++ s.rules
      faults := fs ++ s.faults }

namespace Handles

variable {s : ParseState} {tail : List TokenKind} {ps qs : List Piece} {rs ss : List Rule}

theorem nil (hg : s.goals = []) (hr : s.rest = tail) : Handles s tail [] [] := by
  subst hr
  refine ⟨[], [], [], .nil, .nil, ?_⟩
  rw [← hg]
  exact .refl

/-- Pieces are handled one after the other. -/
theorem append (h : Handles s (kindsOf qs ++ tail) ps rs)
    (k : ∀ t : ParseState, t.goals = [] → t.outer = s.outer → t.rest = kindsOf qs ++ tail →
      Handles t tail qs ss) : Handles s tail (ps ++ qs) (rs ++ ss) := by
  obtain ⟨ms₁, qs₁, fs₁, hc₁, hf₁, hs₁⟩ := h
  obtain ⟨ms₂, qs₂, fs₂, hc₂, hf₂, hs₂⟩ := k { s with
    goals := [], members := ms₁ ++ s.members, rest := kindsOf qs ++ tail,
    rules := qs₁ ++ s.rules, faults := fs₁ ++ s.faults } rfl rfl rfl
  refine ⟨ms₂ ++ ms₁, qs₂ ++ qs₁, fs₂ ++ fs₁, ?_, ?_, ?_⟩
  · refine (hc₁.append hc₂).of_count ?_
    intro r
    simp only [List.count_append]
    omega
  · rw [faultRanges_append, List.reverse_append]
    rw [List.length_append] at hf₁
    exact List.rel_append hf₁ hf₂
  · have := hs₁.trans hs₂
    simpa using this

/-- Rules that are counted alike may take each other's place. -/
theorem recount (h : Handles s tail ps rs) (hc : ∀ a, Census a rs → Census a ss) :
    Handles s tail ps ss := by
  obtain ⟨ms, qs, fs, hcensus, hf, hs⟩ := h
  exact ⟨ms, qs, fs, hc _ hcensus, hf, hs⟩

/-- Single kinds in front of the pieces make no fault. -/
theorem kinds (h : Handles s tail ps rs) (w : List TokenKind) :
    Handles s tail (w.map .kind ++ ps) rs := by
  obtain ⟨ms, qs, fs, hcensus, hf, hs⟩ := h
  refine ⟨ms, qs, fs, hcensus, ?_, hs⟩
  rw [faultRanges_append, faultRanges_map_kind]
  exact hf

end Handles

/-! ## The beginning of a member -/

/-- A member begins, and what is read of it without a fault is not counted. -/
theorem exists_reaches_within {s : ParseState} {k : TokenKind} {ks ks' : List TokenKind}
    {goals gs : List Goal} {rs : List Rule} (hg : s.goals = []) (hr : s.rest = k :: ks)
    (hends : s.inBlock = true → endsBlock k = false) (hm : memberGoals? s.inBlock k = some goals)
    (h : Reads goals ks rs gs ks') :
    ∃ qs, Census qs [] ∧
      s.Reaches { s with goals := gs, rest := ks', rules := qs ++ s.rules } := by
  have hbegin := ParseState.Advances.begin hg hr hends hm
  have hread := h.proceeds (s := { s with goals := goals, rest := ks }) rfl rfl
  refine ⟨rs.reverse, .of_not_structural ?_, ?_⟩
  · intro r hr
    exact h.not_structural (noneStructural_of_memberGoals hm) r (List.mem_reverse.1 hr)
  · exact ParseState.Proceeds.reaches (.head hbegin hread)

/-! ## A malformed statement -/

/-- Where nothing begins, no statement begins. -/
theorem beginsStatement_of_memberGoals {inBlock : Bool} {k : TokenKind}
    (h : memberGoals? inBlock k = none) (hf : inBlock = true → k ≠ .keyword .function) :
    beginsStatement k = false := by
  cases k with
  | keyword w =>
    cases inBlock with
    | true =>
      cases w <;> first
        | rfl
        | exact absurd rfl (hf rfl)
        | cases h
    | false =>
      cases w <;> first
        | rfl
        | cases h
  | _ => rfl

/-- Recovery skips to the next semicolon if nothing else stops it. -/
theorem recover_semicolon (inBlock : Bool) {x : List TokenKind} (ks : List TokenKind)
    (hx : ∀ k ∈ x, separates k = false ∧ beginsStatement k = false) :
    recover inBlock (x ++ .punctuation .semicolon :: ks) = ks := by
  induction x with
  | nil => rfl
  | cons k x ih =>
    obtain ⟨hsep, hk⟩ := hx k (.head _)
    have hsemi : k ≠ .punctuation .semicolon := by
      rintro rfl
      cases hsep
    have hbrace : k ≠ .punctuation .closeBrace := by
      rintro rfl
      cases hsep
    rw [List.cons_append, recover, if_neg hsemi, if_neg hbrace, hk]
    exact ih fun k' hk' => hx k' (.tail _ hk')

/-- Two lists with the same first separator. -/
theorem eq_of_first_separator {x y v z : List TokenKind} {k t : TokenKind}
    (hx : ∀ j ∈ x, separates j = false) (hy : ∀ j ∈ y, separates j = false)
    (hk : separates k = true) (ht : separates t = true)
    (h : x ++ k :: v = y ++ t :: z) : x = y ∧ k = t ∧ v = z := by
  induction x generalizing y with
  | nil =>
    cases y with
    | nil =>
      cases h
      exact ⟨rfl, rfl, rfl⟩
    | cons j y =>
      cases h
      rw [hy _ (.head _)] at hk
      cases hk
  | cons i x ih =>
    cases y with
    | nil =>
      cases h
      rw [hx _ (.head _)] at ht
      cases ht
    | cons j y =>
      obtain ⟨rfl, htail⟩ := List.cons_eq_cons.1 h
      obtain ⟨rfl, rfl, rfl⟩ := ih (fun j hj => hx j (.tail _ hj))
        (fun j hj => hy j (.tail _ hj)) htail
      exact ⟨rfl, rfl, rfl⟩

/-- A member of a list has a semicolon or a brace, and ends at the first one if that is a
semicolon.  It is then a statement. -/
theorem member_separator {inBlock : Bool} {r : Rule} (hr : r ∈ memberRules inBlock)
    {w : List TokenKind} (h : Derives r.member (terminals w)) :
    ∃ x k y, (∀ j ∈ x, separates j = false) ∧ separates k = true ∧ w = x ++ k :: y ∧
      (k = .punctuation .semicolon → y = [] ∧ Generates .statement w) := by
  obtain ⟨rs, hy⟩ := exists_yields_of_derives h inBlock
  have hcases : r.member = [.nonterminal .statement] ∨ r.member = [.nonterminal .function] := by
    cases inBlock with
    | true =>
      obtain rfl := List.mem_singleton.1 hr
      exact .inl rfl
    | false =>
      rcases List.mem_cons.1 hr with rfl | hr
      · exact .inl rfl
      · obtain rfl := List.mem_singleton.1 hr
        exact .inr rfl
  rcases hcases with hm | hm <;> rw [hm] at h hy
  · have hshape := hy.statement_shape
    rw [kindsOf_map_kind] at hshape
    cases hshape with
    | line x hx hw => exact ⟨x, _, [], hx, rfl, hw, fun _ => ⟨rfl, h⟩⟩
    | block x y hx hw => exact ⟨x, _, y, hx, rfl, hw, fun hk => by cases hk⟩
  · obtain ⟨x, y, hx, hw⟩ := hy.function_shape
    rw [kindsOf_map_kind] at hw
    exact ⟨x, _, y, hx, rfl, hw, fun hk => by cases hk⟩

/-- What derives a word with a kind at its end ends in that kind. -/
theorem getLast_of_derives {δ : List GrammarSymbol} {k : TokenKind} {w : List TokenKind}
    (h : Derives (δ ++ [.terminal k]) (terminals w)) : k ∈ w := by
  obtain ⟨rs, hy⟩ := exists_yields_of_derives h false
  obtain ⟨ps₁, ps₂, rs₁, rs₂, -, hlast, hps, -⟩ := hy.append_inv
  obtain ⟨qs, rfl, -⟩ := hlast.terminal_inv
  have : Piece.kind k ∈ w.map Piece.kind := by simp [hps]
  simpa using this

/-- What has been read of a malformed statement does not go past its last kind but the
semicolon. -/
theorem exists_unread_malformed {inBlock : Bool} {k : TokenKind} {y x v ks ks' : List TokenKind}
    {r : Rule} (m : Malformed inBlock (k :: y)) (hr : r ∈ memberRules inBlock)
    (hx : y ++ .punctuation .semicolon :: ks = x ++ ks')
    (hv : Derives r.member (terminals (k :: x ++ v))) :
    ∃ z, y = x ++ z ∧ ks' = z ++ .punctuation .semicolon :: ks := by
  obtain ⟨a, hxa, hks⟩ | ⟨z, hyz, hks⟩ := List.append_eq_append_iff.1 hx
  · cases a with
    | nil =>
      rw [List.append_nil] at hxa
      exact ⟨[], by rw [hxa, List.append_nil], hks.symm⟩
    | cons j a =>
      obtain ⟨rfl, -⟩ := List.cons_eq_cons.1 hks
      -- The semicolon would have been read.  A member ends there, so it would be a statement.
      have hsplit : k :: x ++ v = k :: y ++ .punctuation .semicolon :: (a ++ v) := by simp [hxa]
      obtain ⟨x₀, k₀, y₀, hx₀, hk₀, hw, hline⟩ := member_separator hr hv
      rw [hsplit] at hw hline
      obtain ⟨rfl, rfl, rfl⟩ := eq_of_first_separator (fun j hj => (m.inner j hj).1) hx₀ rfl
        hk₀ hw
      obtain ⟨hnil, hstatement⟩ := hline rfl
      rw [hnil] at hstatement
      exact absurd hstatement m.notStatement
  · exact ⟨z, hyz, hks⟩

/-- Reading a malformed statement ends with a fault in it. -/
theorem exists_fault_malformed {inBlock : Bool} {k : TokenKind} {y ks ks' : List TokenKind}
    {goals gs' : List Goal} {rs : List Rule} (m : Malformed inBlock (k :: y))
    (hm : memberGoals? inBlock k = some goals)
    (h : Reads goals (y ++ .punctuation .semicolon :: ks) rs gs' ks') (hs : Stuck gs' ks') :
    ∃ g gs e x z, gs' = g :: gs ∧ g.plan ks' = .fault e ∧ y = x ++ z ∧
      ks' = z ++ .punctuation .semicolon :: ks := by
  obtain ⟨r, hr, hbuilds⟩ := builds_of_memberGoals hm
  obtain ⟨x, σ, hx, hσ, hexpand⟩ := h.builds hbuilds
  have hread : Derives σ (terminals (k :: x)) := derives_of_expandAll? _ hexpand
  obtain ⟨v, hv⟩ := hσ.exists_completion
  have hmember : Derives r.member (terminals (k :: x ++ v)) := by
    have := hread.append [] (terminals v)
    refine hv.trans ?_
    simpa using this
  obtain ⟨z, rfl, rfl⟩ := exists_unread_malformed m hr hx hmember
  have hplain : ∀ j ∈ k :: x, separates j = false := by
    intro j hj
    refine (m.inner j ?_).1
    rw [← List.cons_append]
    exact List.mem_append_left _ hj
  cases hs with
  | nil =>
    obtain ⟨gs, hgs, -⟩ := hσ
    simp at hgs
  | fault hp => exact ⟨_, _, _, x, z, rfl, hp, rfl, rfl⟩
  | block =>
    -- A block comes behind its opening brace.
    obtain ⟨δ, rfl, -⟩ := hσ.cons_inv rfl
    cases hplain _ (getLast_of_derives hread)
  | tally =>
    -- A complete member has a semicolon or a brace.
    obtain ⟨rfl, rfl, rfl⟩ := hσ.tally_inv
    obtain ⟨x₀, k₀, y₀, -, hk₀, hw, -⟩ := member_separator hr hread
    have hmem : k₀ ∈ k :: x := by
      rw [hw]
      exact List.mem_append_right _ (.head _)
    rw [hplain k₀ hmem] at hk₀
    cases hk₀

/-- A fault within a malformed statement is the only one, and the parser goes on behind its
semicolon. -/
theorem handles_of_stumbles {s : ParseState} {x z ks : List TokenKind} {gs : List Goal}
    {qs : List Rule} {e : Expected} (hqs : Census qs [])
    (h : s.Reaches { s with
      goals := gs, rest := z ++ .punctuation .semicolon :: ks, rules := qs ++ s.rules })
    (hs : ParseState.Stumbles { s with
      goals := gs, rest := z ++ .punctuation .semicolon :: ks, rules := qs ++ s.rules } e)
    (hskip : ∀ k ∈ z, separates k = false ∧ beginsStatement k = false) :
    Handles s ks [.malformed (x ++ z)] [] := by
  refine ⟨[], qs, [⟨e, (z ++ .punctuation .semicolon :: ks).length⟩], ?_, ?_, ?_⟩
  · rw [List.append_nil]
    exact hqs
  · refine .cons ?_ .nil
    simp
    omega
  · refine h.tail ((ParseState.step_of_stumbles hs).trans ?_)
    rw [ParseState.fail, recover_semicolon _ _ hskip]
    rfl

/-- A malformed statement is met by one fault, and is left behind its semicolon. -/
theorem handles_malformed {s : ParseState} {body ks : List TokenKind}
    (m : Malformed s.inBlock body) (hg : s.goals = [])
    (hr : s.rest = body ++ .punctuation .semicolon :: ks) :
    Handles s ks [.malformed body] [] := by
  have hskip : ∀ k ∈ body.tail, separates k = false ∧ beginsStatement k = false :=
    fun k hk => ⟨(m.inner k (List.mem_of_mem_tail hk)).1, m.resumes k hk⟩
  have hstart : s.Reaches { s with
      goals := [], rest := body ++ .punctuation .semicolon :: ks, rules := [] ++ s.rules } := by
    rw [← hr, ← hg]
    exact .refl
  cases body with
  | nil =>
    have hnone : memberGoals? s.inBlock (.punctuation .semicolon) = none := by
      cases s.inBlock <;> rfl
    have hstumbles := ParseState.Stumbles.between (s := { s with
      goals := [], rest := .punctuation .semicolon :: ks }) rfl rfl (fun _ => rfl) hnone
    exact handles_of_stumbles (x := []) .nil hstart hstumbles hskip
  | cons k y =>
    have hends : s.inBlock = true → endsBlock k = false := by
      intro hb
      have hfunction : k ≠ .keyword .function := fun hk => m.head hb (congrArg some hk)
      have hbrace : k ≠ .punctuation .closeBrace := by
        rintro rfl
        cases (m.inner _ (.head _)).1
      simp [endsBlock, hfunction, hbrace]
    cases hm : memberGoals? s.inBlock k with
    | none =>
      have hstumbles := ParseState.Stumbles.between (s := { s with
        goals := [], rest := k :: y ++ .punctuation .semicolon :: ks }) rfl rfl hends hm
      have hbegins : beginsStatement k = false :=
        beginsStatement_of_memberGoals hm fun hb hk => m.head hb (congrArg some hk)
      refine handles_of_stumbles (x := []) .nil hstart hstumbles ?_
      intro j hj
      rcases List.mem_cons.1 hj with rfl | hj
      · exact ⟨(m.inner j (.head _)).1, hbegins⟩
      · exact hskip j hj
    | some goals =>
      obtain ⟨rs, gs', ks', hreads, hstuck⟩ :=
        exists_reads_stuck goals (y ++ .punctuation .semicolon :: ks)
      obtain ⟨g, gs, e, x, z, rfl, hp, rfl, rfl⟩ := exists_fault_malformed m hm hreads hstuck
      obtain ⟨qs, hqs, hreaches⟩ := exists_reaches_within hg hr hends hm hreads
      rw [← List.cons_append]
      refine handles_of_stumbles hqs hreaches (.goal rfl hp) ?_
      intro j hj
      exact hskip j (List.mem_append_right _ hj)

end Pdl
