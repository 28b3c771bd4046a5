import Pdl.Proofs.Parsing.Reading

/-!
# The stack of the whole program

The lists of statements that the parser is in are nested.  For each list the
stack holds its complete members, and then the part of the next member that
has been read: up to the opening brace of the next inner list, or, for the
innermost list, up to the next token.  `Stands s γ` says that `γ` is the stack
of the whole program in the state `s`.

It is an invariant of the steps without faults (`Advances.stands`).  What a
step reads goes to the end of the stack, and a rule that it records undoes a
rightmost step.  So the recorded rules always lead from the stack back to what
has been read (`Proceeds.stands`), and the word that has been read can always
be continued to a program (`Stands.exists_completion`).
-/

namespace Pdl

/-! ## Lists of members -/

/-- The members of a list, given by their rules, the latest first. -/
def membersStack (ms : List Rule) : List GrammarSymbol := ms.reverse.flatMap Rule.member

@[simp] theorem membersStack_nil : membersStack [] = [] := rfl

@[simp] theorem membersStack_cons (r : Rule) (ms : List Rule) :
    membersStack (r :: ms) = membersStack ms ++ r.member := by
  simp [membersStack]

/-- A list derives its members and a further list. -/
theorem derives_members {inBlock : Bool} {ms : List Rule}
    (h : ∀ r ∈ ms, r ∈ memberRules inBlock) :
    Derives [.nonterminal (listNonterminal inBlock)]
      (membersStack ms ++ [.nonterminal (listNonterminal inBlock)]) := by
  induction ms with
  | nil => exact .refl _
  | cons r ms ih =>
    obtain ⟨hrhs, hlhs⟩ := rhs_of_mem_memberRules (h r (.head _))
    have hms := ih fun q hq => h q (.tail _ hq)
    have hstep := Expands.rule r (membersStack ms) []
    rw [hlhs, hrhs] at hstep
    refine hms.trans (.step hstep ?_)
    simpa using Derives.refl _

/-- A list may be empty. -/
theorem derives_listEnd (inBlock : Bool) :
    Derives [.nonterminal (listNonterminal inBlock)] [] := by
  cases inBlock with
  | true => exact .step (.rule .bodyEnd [] []) (.refl _)
  | false => exact .step (.rule .programEnd [] []) (.refl _)

/-- A list derives its members alone. -/
theorem derives_list {inBlock : Bool} {ms : List Rule}
    (h : ∀ r ∈ ms, r ∈ memberRules inBlock) :
    Derives [.nonterminal (listNonterminal inBlock)] (membersStack ms) := by
  have hend := (derives_listEnd inBlock).append (membersStack ms) []
  refine (derives_members h).trans ?_
  simpa using hend

/-- The rules at the end of a block make its body of its members. -/
theorem stackAfter?_leave {ms : List Rule} (h : ∀ r ∈ ms, r ∈ memberRules true) :
    stackAfter? (.reduce .bodyEnd :: ms.map .reduce) (membersStack ms)
      = some [.nonterminal .body] := by
  have hbody : stackAfter? (ms.map .reduce) (membersStack ms ++ [.nonterminal .body])
      = some [.nonterminal .body] := by
    induction ms with
    | nil => rfl
    | cons r ms ih =>
      obtain ⟨hrhs, hlhs⟩ := rhs_of_mem_memberRules (h r (.head _))
      have hs : membersStack (r :: ms) ++ [.nonterminal .body]
          = membersStack ms ++ (Goal.reduce r).before := by
        rw [Goal.before, hrhs, membersStack_cons, List.append_assoc]
        rfl
      rw [hs, List.map_cons, stackAfter?_cons rfl, Goal.after, hlhs]
      exact ih fun q hq => h q (.tail _ hq)
  rw [← List.append_nil (membersStack ms),
    show ([] : List GrammarSymbol) = (Goal.reduce .bodyEnd).before from rfl,
    stackAfter?_cons rfl]
  exact hbody

/-! ## The stack of a state -/

/-- The stack of the lists around the innermost one, up to its beginning. -/
inductive Frames : List Enclosing → List GrammarSymbol → Prop where
  | nil : Frames [] []
  | cons {e : Enclosing} {outer : List Enclosing} {γ σ : List GrammarSymbol} {r : Rule}
      (h : Frames outer γ) (hm : ∀ q ∈ e.members, q ∈ memberRules (!outer.isEmpty))
      (hr : r ∈ memberRules (!outer.isEmpty))
      (hb : Builds e.goals r (σ ++ [.nonterminal .body])) :
      Frames (e :: outer) (γ ++ membersStack e.members ++ σ)

/-- The stack of the whole program. -/
inductive Stands : ParseState → List GrammarSymbol → Prop where
  /-- Between two members of the innermost list. -/
  | between {s : ParseState} {γ : List GrammarSymbol} (h : Frames s.outer γ)
      (hm : ∀ q ∈ s.members, q ∈ memberRules s.inBlock) (hg : s.goals = []) :
      Stands s (γ ++ membersStack s.members)
  /-- Within a member for the rule `r`. -/
  | within {s : ParseState} {γ σ : List GrammarSymbol} {r : Rule} (h : Frames s.outer γ)
      (hm : ∀ q ∈ s.members, q ∈ memberRules s.inBlock) (hr : r ∈ memberRules s.inBlock)
      (hb : Builds s.goals r σ) : Stands s (γ ++ membersStack s.members ++ σ)

theorem stands_start (w : List TokenKind) : Stands { rest := w } [] :=
  .between (s := { rest := w }) .nil (by simp) rfl

namespace Stands

variable {s : ParseState} {γ : List GrammarSymbol}

theorem between_inv (h : Stands s γ) (hg : s.goals = []) :
    ∃ γ₀, Frames s.outer γ₀ ∧ (∀ q ∈ s.members, q ∈ memberRules s.inBlock) ∧
      γ = γ₀ ++ membersStack s.members := by
  cases h with
  | between h hm _ => exact ⟨_, h, hm, rfl⟩
  | within h hm hr hb =>
    obtain ⟨gs, hgs, -⟩ := hb
    simp [hg] at hgs

theorem within_inv {g : Goal} {gs : List Goal} (h : Stands s γ) (hg : s.goals = g :: gs) :
    ∃ γ₀ r σ, Frames s.outer γ₀ ∧ (∀ q ∈ s.members, q ∈ memberRules s.inBlock) ∧
      r ∈ memberRules s.inBlock ∧ Builds (g :: gs) r σ ∧
      γ = γ₀ ++ membersStack s.members ++ σ := by
  cases h with
  | between _ _ hg' => simp [hg] at hg'
  | within h hm hr hb => exact ⟨_, _, _, h, hm, hr, hg ▸ hb, rfl⟩

end Stands

namespace ParseState

variable {s t : ParseState} {γ : List GrammarSymbol}

/-- A step without a fault keeps the account: what it reads and what it records are the
difference between the stacks. -/
theorem Advances.stands (h : s.Advances t) (hs : Stands s γ) :
    ∃ γ' x rs, Stands t γ' ∧ s.rest = x ++ t.rest ∧ t.rules = rs ++ s.rules ∧
      expandAll? rs γ' = some (γ ++ terminals x) := by
  cases h with
  | @begin k ks goals hg hr hb hm =>
    obtain ⟨γ₀, hf, hms, rfl⟩ := hs.between_inv hg
    obtain ⟨r, hmem, hbuilds⟩ := builds_of_memberGoals hm
    refine ⟨_, [k], [], .within hf hms hmem hbuilds, hr, rfl, rfl⟩
  | @leave e outer hg ho hr =>
    obtain ⟨γ₀, hf, hms, rfl⟩ := hs.between_inv hg
    rw [inBlock_of_outer ho] at hms
    rw [ho] at hf
    cases hf with
    | @cons _ _ γ σ r hf hm hmem hb =>
      have hbuilds := hb.append (stackAfter?_append_left (stackAfter?_leave hms) σ)
      refine ⟨_, [], [], .within (s := s.leave e outer) hf hm hmem hbuilds, rfl, rfl, ?_⟩
      rw [show (s.leave e outer).members = e.members from rfl]
      simp [expandAll?]
  | @shift g gs goals k ks hg hr hp =>
    obtain ⟨γ₀, r, σ, hf, hms, hmem, hbuilds, rfl⟩ := hs.within_inv hg
    refine ⟨_, [k], [], .within hf hms hmem (hbuilds.shift hp), hr, rfl, ?_⟩
    simp [expandAll?]
  | expand hg hp =>
    obtain ⟨γ₀, r, σ, hf, hms, hmem, hbuilds, rfl⟩ := hs.within_inv hg
    refine ⟨_, [], [], .within hf hms hmem (hbuilds.expand hp), rfl, rfl, ?_⟩
    simp [expandAll?]
  | @complete q gs hg =>
    obtain ⟨γ₀, r, σ, hf, hms, hmem, hbuilds, rfl⟩ := hs.within_inv hg
    obtain ⟨σ', hbuilds', hstep⟩ := hbuilds.complete
    have hlast := expandLast?_append_left (hstep []) (γ₀ ++ membersStack s.members)
    refine ⟨_, [], [q], .within hf hms hmem hbuilds', rfl, rfl, ?_⟩
    exact expandAll?_cons (by simpa using hlast) (by simp [expandAll?])
  | @count q gs hg =>
    obtain ⟨γ₀, r, σ, hf, hms, hmem, hbuilds, rfl⟩ := hs.within_inv hg
    obtain ⟨rfl, rfl, rfl⟩ := hbuilds.tally_inv
    have hms' : ∀ p ∈ q :: s.members, p ∈ memberRules s.inBlock := by
      intro p hp
      rcases List.mem_cons.1 hp with rfl | hp
      · exact hmem
      · exact hms p hp
    refine ⟨_, [], [], .between hf hms' rfl, rfl, rfl, ?_⟩
    simp [expandAll?]
  | @enter gs hg =>
    obtain ⟨γ₀, r, σ, hf, hms, hmem, hbuilds, rfl⟩ := hs.within_inv hg
    obtain ⟨δ, rfl, hrest⟩ := hbuilds.cons_inv rfl
    have hframe : Frames (⟨s.members, gs⟩ :: s.outer)
        (γ₀ ++ membersStack s.members ++ (δ ++ Goal.block.before)) :=
      .cons hf hms hmem (by simpa [Goal.before, Goal.after] using hrest)
    refine ⟨_, [], [], .between hframe (by simp) rfl, rfl, rfl, ?_⟩
    simp [expandAll?]

/-- What a run without faults reads and records. -/
theorem Proceeds.stands (h : s.Proceeds t) (k : Stands s γ) :
    ∃ γ' x rs, Stands t γ' ∧ s.rest = x ++ t.rest ∧ t.rules = rs ++ s.rules ∧
      expandAll? rs γ' = some (γ ++ terminals x) := by
  induction h with
  | refl => exact ⟨γ, [], [], k, rfl, rfl, by simp [expandAll?]⟩
  | tail _ a ih =>
    obtain ⟨γ₁, x, rs, k₁, hx, hrs, he⟩ := ih
    obtain ⟨γ₂, y, ss, k₂, hy, hss, he'⟩ := a.stands k₁
    refine ⟨γ₂, x ++ y, ss ++ rs, k₂, by simp [hx, hy], by simp [hrs, hss], ?_⟩
    have := expandAll?_append he' (expandAll?_append_terminals he y)
    simpa using this

/-- The rules recorded without a fault lead from the stack back to what has been read. -/
theorem Proceeds.expandAll?_rules {w : List TokenKind}
    (h : ParseState.Proceeds { rest := w } t) :
    ∃ γ x, Stands t γ ∧ w = x ++ t.rest ∧ expandAll? t.rules γ = some (terminals x) := by
  obtain ⟨γ, x, rs, k, hx, hrs, he⟩ := h.stands (stands_start w)
  refine ⟨γ, x, k, hx, ?_⟩
  rw [hrs]
  simpa using he

end ParseState

/-! ## Continuations -/

/-- A list may go on with a member and end behind it. -/
theorem derives_listMember {inBlock : Bool} {ms : List Rule} {r : Rule}
    (hm : ∀ q ∈ ms, q ∈ memberRules inBlock) (hr : r ∈ memberRules inBlock) :
    Derives [.nonterminal (listNonterminal inBlock)] (membersStack ms ++ r.member) := by
  have hms : ∀ q ∈ r :: ms, q ∈ memberRules inBlock := by
    intro q hq
    rcases List.mem_cons.1 hq with rfl | hq
    · exact hr
    · exact hm q hq
  rw [← membersStack_cons]
  exact derives_list hms

/-- What makes a member of a list continues what stands in front of the list. -/
theorem derives_continue {inBlock : Bool} {ms : List Rule} {r : Rule}
    {u γ σ : List GrammarSymbol} {v v' : List TokenKind}
    (hu : Derives u (γ ++ .nonterminal (listNonterminal inBlock) :: terminals v))
    (hm : ∀ q ∈ ms, q ∈ memberRules inBlock) (hr : r ∈ memberRules inBlock)
    (hσ : Derives r.member (σ ++ terminals v')) :
    Derives u (γ ++ membersStack ms ++ σ ++ terminals (v' ++ v)) := by
  have hlist := (derives_listMember hm hr).append γ (terminals v)
  have hmember := hσ.append (γ ++ membersStack ms) (terminals v)
  simp only [List.append_assoc, List.cons_append, List.nil_append, terminals_append]
    at hu hlist hmember ⊢
  exact hu.trans (hlist.trans hmember)

/-- The stack up to the innermost list belongs to a program. -/
theorem Frames.exists_completion {outer : List Enclosing} {γ : List GrammarSymbol}
    (h : Frames outer γ) :
    ∃ v, Derives [.nonterminal .program]
      (γ ++ .nonterminal (listNonterminal (!outer.isEmpty)) :: terminals v) := by
  induction h with
  | nil => exact ⟨[], .refl _⟩
  | cons h hm hr hb ih =>
    obtain ⟨v, hv⟩ := ih
    obtain ⟨v', hσ⟩ := hb.exists_completion
    refine ⟨v' ++ v, ?_⟩
    have := derives_continue hv hm hr hσ
    simpa [listNonterminal] using this

/-- The stack of a state can be continued to a program. -/
theorem Stands.exists_completion {s : ParseState} {γ : List GrammarSymbol} (h : Stands s γ) :
    ∃ v, Derives [.nonterminal .program] (γ ++ terminals v) := by
  cases h with
  | @between γ hf hm hg =>
    obtain ⟨v, hv⟩ := hf.exists_completion
    have hms := (derives_list hm).append γ (terminals v)
    refine ⟨v, hv.trans ?_⟩
    rw [List.append_assoc] at hms
    exact hms
  | within hf hm hr hb =>
    obtain ⟨v, hv⟩ := hf.exists_completion
    obtain ⟨v', hσ⟩ := hb.exists_completion
    exact ⟨v' ++ v, derives_continue hv hm hr hσ⟩

end Pdl
