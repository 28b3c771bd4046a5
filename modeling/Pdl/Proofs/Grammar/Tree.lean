import Pdl.Parsing.Goal
import Pdl.Proofs.Grammar.Rightmost

/-!
# Derivation trees with malformed statements

A *malformed statement* is a run of kinds that ends in its only semicolon, has
no brace, begins a statement nowhere but at its first kind, and is no
statement.  Texts in which such runs stand in the place of statements are
derived by the grammar extended with one rule for each of them.

`Yields b u ps rs` is a forest of derivation trees of the extended grammar with
the roots `u`.  Its leaves are the *pieces* `ps`: single kinds and whole
malformed statements.  `rs` lists the rules of its inner nodes, those of the
grammar only, each after the ones below it.  `b` tells whether the roots stand
inside a block, where a malformed statement may not begin with the word
`function`.

Each derivation of the grammar itself is such a forest, without malformed
statements (`exists_yields_of_derives`).  What cannot contain a statement, a
*phrase*, has neither malformed pieces nor rules of statements
(`Yields.phrase`), and a statement or function reaches its first semicolon or
brace in one of two ways (`Yields.statement_shape`, `Yields.function_shape`).
-/

namespace Pdl

/-! ## Malformed statements -/

/-- A semicolon or a brace. -/
def separates : TokenKind → Bool
  | .punctuation .semicolon | .punctuation .openBrace | .punctuation .closeBrace => true
  | _ => false

/-- The kinds `body` and a semicolon after them are a malformed statement.  `inBlock` tells
whether it stands in the body of a block. -/
structure Malformed (inBlock : Bool) (body : List TokenKind) : Prop where
  /-- The semicolon is the only one, there are no braces, and the end is not reached. -/
  inner : ∀ k ∈ body, separates k = false ∧ k ≠ .endOfInput
  /-- Only the first kind may begin a statement. -/
  resumes : ∀ k ∈ body.tail, beginsStatement k = false
  /-- The word `function` would end the body of a block. -/
  head : inBlock = true → body.head? ≠ some (.keyword .function)
  /-- It is no statement. -/
  notStatement : ¬ Generates .statement (body ++ [.punctuation .semicolon])

/-- A leaf of a derivation tree of the extended grammar. -/
inductive Piece where
  /-- A single kind. -/
  | kind (k : TokenKind)
  /-- A malformed statement: these kinds and a semicolon. -/
  | malformed (body : List TokenKind)
deriving Repr, DecidableEq

/-- The kinds of a piece. -/
def Piece.kinds : Piece → List TokenKind
  | kind k => [k]
  | malformed body => body ++ [.punctuation .semicolon]

/-- The kinds of a list of pieces. -/
def kindsOf (ps : List Piece) : List TokenKind := ps.flatMap Piece.kinds

@[simp] theorem kindsOf_nil : kindsOf [] = [] := rfl

@[simp] theorem kindsOf_kind (k : TokenKind) (ps : List Piece) :
    kindsOf (.kind k :: ps) = k :: kindsOf ps := rfl

@[simp] theorem kindsOf_malformed (body : List TokenKind) (ps : List Piece) :
    kindsOf (.malformed body :: ps) = body ++ .punctuation .semicolon :: kindsOf ps := by
  simp [kindsOf, Piece.kinds]

@[simp] theorem kindsOf_append (ps qs : List Piece) :
    kindsOf (ps ++ qs) = kindsOf ps ++ kindsOf qs := List.flatMap_append

@[simp] theorem kindsOf_map_kind (w : List TokenKind) : kindsOf (w.map .kind) = w := by
  induction w with
  | nil => rfl
  | cons k w ih => rw [List.map_cons, kindsOf_kind, ih]

/-! ## Forests -/

/-- A forest of derivation trees of the extended grammar: its place, its roots, its leaves
and the rules of its inner nodes. -/
inductive Yields : Bool → List GrammarSymbol → List Piece → List Rule → Prop where
  | nil {b : Bool} : Yields b [] [] []
  | terminal {b : Bool} {u : List GrammarSymbol} {ps : List Piece} {rs : List Rule}
      (k : TokenKind) (h : Yields b u ps rs) :
      Yields b (.terminal k :: u) (.kind k :: ps) rs
  /-- The trees below the left side of a rule stand in a block if that is a body. -/
  | rule {b : Bool} {n : Nonterminal} {u : List GrammarSymbol} {ps qs : List Piece}
      {rs ss : List Rule} (r : Rule) (hr : r.lhs = n)
      (h : Yields (b || n == .body) r.rhs ps rs) (k : Yields b u qs ss) :
      Yields b (.nonterminal n :: u) (ps ++ qs) (rs ++ r :: ss)
  /-- The rule `B → M` of a malformed statement `M`. -/
  | malformed {b : Bool} {u : List GrammarSymbol} {ps : List Piece} {rs : List Rule}
      {body : List TokenKind} (m : Malformed b body) (h : Yields b u ps rs) :
      Yields b (.nonterminal .statement :: u) (.malformed body :: ps) rs

namespace Yields

variable {b : Bool} {u v : List GrammarSymbol} {n : Nonterminal} {ps qs : List Piece}
  {rs ss : List Rule}

theorem nil_inv (h : Yields b [] ps rs) : ps = [] ∧ rs = [] := by
  cases h
  exact ⟨rfl, rfl⟩

theorem terminal_inv {k : TokenKind} (h : Yields b (.terminal k :: u) ps rs) :
    ∃ qs, ps = .kind k :: qs ∧ Yields b u qs rs := by
  cases h with
  | terminal _ h => exact ⟨_, rfl, h⟩

/-- The first tree of a forest and the others. -/
theorem nonterminal_inv (h : Yields b (.nonterminal n :: u) ps rs) :
    ∃ ps₁ ps₂ rs₁ rs₂, Yields b [.nonterminal n] ps₁ rs₁ ∧ Yields b u ps₂ rs₂ ∧
      ps = ps₁ ++ ps₂ ∧ rs = rs₁ ++ rs₂ := by
  cases h with
  | @rule _ _ _ ps qs rs ss r hr h k =>
    refine ⟨ps, qs, rs ++ [r], ss, ?_, k, rfl, by simp⟩
    simpa using Yields.rule r hr h .nil
  | @malformed _ _ ps rs body m h =>
    exact ⟨[.malformed body], ps, [], rs, .malformed m .nil, h, rfl, rfl⟩

/-- The rule at the root of a tree that is no statement. -/
theorem rule_inv (hn : (n == .statement) = false) (h : Yields b [.nonterminal n] ps rs) :
    ∃ r ss, r.lhs = n ∧ Yields (b || n == .body) r.rhs ps ss ∧ rs = ss ++ [r] := by
  cases h with
  | rule r hr h k =>
    obtain ⟨rfl, rfl⟩ := k.nil_inv
    exact ⟨r, _, hr, by simpa using h, rfl⟩
  | malformed _ _ => cases hn

/-- A statement is made by a rule or is malformed. -/
theorem statement_inv (h : Yields b [.nonterminal .statement] ps rs) :
    (∃ r ss, r.lhs = .statement ∧ Yields b r.rhs ps ss ∧ rs = ss ++ [r]) ∨
      ∃ body, Malformed b body ∧ ps = [.malformed body] ∧ rs = [] := by
  cases h with
  | rule r hr h k =>
    obtain ⟨rfl, rfl⟩ := k.nil_inv
    have hb : (b || Nonterminal.statement == .body) = b := by cases b <;> rfl
    exact .inl ⟨r, _, hr, by simpa [hb] using h, rfl⟩
  | malformed m h =>
    obtain ⟨rfl, rfl⟩ := h.nil_inv
    exact .inr ⟨_, m, rfl, rfl⟩

theorem append (h : Yields b u ps rs) (k : Yields b v qs ss) :
    Yields b (u ++ v) (ps ++ qs) (rs ++ ss) := by
  induction h with
  | nil => exact k
  | terminal t _ ih => exact .terminal t (ih k)
  | rule r hr h _ _ ih =>
    rw [List.append_assoc, List.append_assoc]
    exact .rule r hr h (ih k)
  | malformed m _ ih => exact .malformed m (ih k)

theorem append_inv (h : Yields b (u ++ v) ps rs) :
    ∃ ps₁ ps₂ rs₁ rs₂, Yields b u ps₁ rs₁ ∧ Yields b v ps₂ rs₂ ∧
      ps = ps₁ ++ ps₂ ∧ rs = rs₁ ++ rs₂ := by
  induction u generalizing ps rs with
  | nil => exact ⟨[], ps, [], rs, .nil, h, rfl, rfl⟩
  | cons s u ih =>
    cases s with
    | terminal k =>
      obtain ⟨qs, rfl, hu⟩ := terminal_inv h
      obtain ⟨ps₁, ps₂, rs₁, rs₂, h₁, h₂, rfl, rfl⟩ := ih hu
      exact ⟨_, ps₂, rs₁, rs₂, .terminal k h₁, h₂, rfl, rfl⟩
    | nonterminal n =>
      obtain ⟨qs, ps', ss, rs', hn, hu, rfl, rfl⟩ := nonterminal_inv h
      obtain ⟨ps₁, ps₂, rs₁, rs₂, h₁, h₂, rfl, rfl⟩ := ih hu
      exact ⟨qs ++ ps₁, ps₂, ss ++ rs₁, rs₂, hn.append h₁, h₂, by simp, by simp⟩

/-- Only malformed statements make a difference between the places. -/
theorem replace {w : List TokenKind} (h : Yields b u (w.map .kind) rs) (b' : Bool) :
    Yields b' u (w.map .kind) rs := by
  generalize hps : w.map Piece.kind = ps at h
  induction h generalizing w b' with
  | nil => exact .nil
  | terminal k h ih =>
    obtain ⟨k', w, rfl, hk, rfl⟩ := List.map_eq_cons_iff.1 hps
    cases hk
    exact .terminal k (ih b' rfl)
  | rule r hr _ _ ih₁ ih₂ =>
    obtain ⟨w₁, w₂, rfl, rfl, rfl⟩ := List.map_eq_append_iff.1 hps
    exact .rule r hr (ih₁ _ rfl) (ih₂ b' rfl)
  | malformed m h =>
    obtain ⟨k, w, -, hk, -⟩ := List.map_eq_cons_iff.1 hps
    cases hk

end Yields

/-! ## Derivations have trees -/

theorem yields_terminals (b : Bool) (w : List TokenKind) :
    Yields b (terminals w) (w.map .kind) [] := by
  induction w with
  | nil => exact .nil
  | cons k w ih => exact .terminal k ih

theorem exists_yields_of_expands {b : Bool} {u v : List GrammarSymbol} {w : List TokenKind}
    {rs : List Rule} (h : Expands u v) (k : Yields b v (w.map .kind) rs) :
    ∃ rs', Yields b u (w.map .kind) rs' := by
  cases h with
  | rule r p q =>
    obtain ⟨ps₁, ps₂, rs₁, rs₂, h₁, hq, hps, -⟩ := k.append_inv
    obtain ⟨ps₃, ps₄, rs₃, rs₄, hp, hr, rfl, -⟩ := h₁.append_inv
    obtain ⟨w₁, w₂, rfl, hw₁, rfl⟩ := List.map_eq_append_iff.1 hps
    obtain ⟨w₃, w₄, rfl, rfl, rfl⟩ := List.map_eq_append_iff.1 hw₁
    refine ⟨rs₃ ++ (rs₄ ++ r :: rs₂), ?_⟩
    rw [List.map_append, List.map_append, List.append_assoc]
    exact hp.append (.rule r rfl (hr.replace _) hq)

/-- Every derivation of a word has a forest. -/
theorem exists_yields_of_derives {u : List GrammarSymbol} {w : List TokenKind}
    (h : Derives u (terminals w)) (b : Bool) : ∃ rs, Yields b u (w.map .kind) rs := by
  generalize hv : terminals w = v at h
  induction h with
  | refl =>
    subst hv
    exact ⟨[], yields_terminals b w⟩
  | step s _ ih =>
    obtain ⟨rs, k⟩ := ih hv
    exact exists_yields_of_expands s k

/-! ## Phrases -/

/-- Whether a nonterminal is a part of statements and has none itself. -/
def Nonterminal.isPhrase : Nonterminal → Bool
  | input | program | statement | function | body => false
  | _ => true

/-- Whether a symbol is a kind or a phrase. -/
def GrammarSymbol.isPhrase : GrammarSymbol → Bool
  | terminal _ => true
  | nonterminal n => n.isPhrase

theorem Rule.isPhrase_of_mem_rhs {r : Rule} (h : r.lhs.isPhrase = true) :
    ∀ s ∈ r.rhs, s.isPhrase = true := by
  cases r <;> first
    | exact absurd h (by decide)
    | decide

/-- A phrase has no malformed statements, and its rules are rules of phrases. -/
theorem Yields.phrase {b : Bool} {u : List GrammarSymbol} {ps : List Piece} {rs : List Rule}
    (h : Yields b u ps rs) (hu : ∀ s ∈ u, s.isPhrase = true) :
    (∃ w : List TokenKind, ps = w.map .kind) ∧ ∀ r ∈ rs, r.lhs.isPhrase = true := by
  induction h with
  | nil => exact ⟨⟨[], rfl⟩, by simp⟩
  | terminal k _ ih =>
    obtain ⟨⟨w, rfl⟩, hrs⟩ := ih fun s hs => hu s (.tail _ hs)
    exact ⟨⟨k :: w, rfl⟩, hrs⟩
  | rule r hr _ _ ih₁ ih₂ =>
    subst hr
    have hl : r.lhs.isPhrase = true := hu _ (.head _)
    obtain ⟨⟨w₁, rfl⟩, hrs⟩ := ih₁ (Rule.isPhrase_of_mem_rhs hl)
    obtain ⟨⟨w₂, rfl⟩, hss⟩ := ih₂ fun s hs => hu s (.tail _ hs)
    refine ⟨⟨w₁ ++ w₂, by simp⟩, ?_⟩
    intro q hq
    rcases List.mem_append.1 hq with hq | hq
    · exact hrs q hq
    · rcases List.mem_cons.1 hq with rfl | hq
      · exact hl
      · exact hss q hq
  | malformed _ _ _ => cases hu _ (.head _)

/-! ## The first semicolon or brace -/

/-- Whether a nonterminal has neither semicolons nor braces. -/
def Nonterminal.isPlain : Nonterminal → Bool
  | input | program | statement | function | body | simple => false
  | _ => true

/-- Whether a symbol has neither semicolons nor braces. -/
def GrammarSymbol.isPlain : GrammarSymbol → Bool
  | terminal k => !separates k
  | nonterminal n => n.isPlain

theorem Rule.isPlain_of_mem_rhs {r : Rule} (h : r.lhs.isPlain = true) :
    ∀ s ∈ r.rhs, s.isPlain = true := by
  cases r <;> first
    | exact absurd h (by decide)
    | decide

/-- What has neither semicolons nor braces. -/
theorem Yields.plain {b : Bool} {u : List GrammarSymbol} {ps : List Piece} {rs : List Rule}
    (h : Yields b u ps rs) (hu : ∀ s ∈ u, s.isPlain = true) :
    ∀ k ∈ kindsOf ps, separates k = false := by
  induction h with
  | nil => simp
  | terminal k _ ih =>
    intro k' hk
    rcases List.mem_cons.1 hk with rfl | hk
    · simpa [GrammarSymbol.isPlain] using hu _ (.head _)
    · exact ih (fun s hs => hu s (.tail _ hs)) k' hk
  | rule r hr _ _ ih₁ ih₂ =>
    subst hr
    intro k hk
    rw [kindsOf_append, List.mem_append] at hk
    rcases hk with hk | hk
    · exact ih₁ (Rule.isPlain_of_mem_rhs (hu _ (.head _))) k hk
    · exact ih₂ (fun s hs => hu s (.tail _ hs)) k hk
  | malformed _ _ _ => cases hu _ (.head _)

/-- A word that ends in its first semicolon, or has a brace before any semicolon. -/
inductive StatementShape (w : List TokenKind) : Prop where
  | line (x : List TokenKind) (hx : ∀ k ∈ x, separates k = false)
      (hw : w = x ++ [.punctuation .semicolon])
  | block (x y : List TokenKind) (hx : ∀ k ∈ x, separates k = false)
      (hw : w = x ++ .punctuation .openBrace :: y)

namespace Yields

variable {b : Bool} {u v : List GrammarSymbol} {ps : List Piece} {rs : List Rule}

theorem plain_append_inv (hu : ∀ s ∈ u, s.isPlain = true) (h : Yields b (u ++ v) ps rs) :
    ∃ x qs ss, (∀ k ∈ x, separates k = false) ∧ Yields b v qs ss ∧
      kindsOf ps = x ++ kindsOf qs := by
  obtain ⟨ps₁, ps₂, rs₁, rs₂, h₁, h₂, rfl, rfl⟩ := h.append_inv
  exact ⟨kindsOf ps₁, ps₂, rs₂, h₁.plain hu, h₂, kindsOf_append ps₁ ps₂⟩

theorem plain_semicolon (hu : ∀ s ∈ u, s.isPlain = true)
    (h : Yields b (u ++ [.terminal (.punctuation .semicolon)]) ps rs) :
    ∃ x, (∀ k ∈ x, separates k = false) ∧ kindsOf ps = x ++ [.punctuation .semicolon] := by
  obtain ⟨x, qs, ss, hx, hq, hps⟩ := h.plain_append_inv hu
  obtain ⟨qs', rfl, hq'⟩ := hq.terminal_inv
  obtain ⟨rfl, -⟩ := hq'.nil_inv
  exact ⟨x, hx, hps⟩

theorem plain_brace (hu : ∀ s ∈ u, s.isPlain = true)
    (h : Yields b (u ++ .terminal (.punctuation .openBrace) :: v) ps rs) :
    ∃ x y, (∀ k ∈ x, separates k = false) ∧ kindsOf ps = x ++ .punctuation .openBrace :: y := by
  obtain ⟨x, qs, ss, hx, hq, hps⟩ := h.plain_append_inv hu
  obtain ⟨qs', rfl, -⟩ := hq.terminal_inv
  exact ⟨x, kindsOf qs', hx, hps⟩

/-- A simple statement ends in its only semicolon. -/
theorem simple_shape (h : Yields b [.nonterminal .simple] ps rs) :
    ∃ x, (∀ k ∈ x, separates k = false) ∧ kindsOf ps = x ++ [.punctuation .semicolon] := by
  obtain ⟨r, ss, hr, hrhs, -⟩ := h.rule_inv rfl
  have hsplit : r.rhs = r.rhs.dropLast ++ [.terminal (.punctuation .semicolon)] ∧
      ∀ s ∈ r.rhs.dropLast, s.isPlain = true := by
    cases r <;> first
      | exact absurd hr (by decide)
      | decide
  rw [hsplit.1] at hrhs
  exact plain_semicolon hsplit.2 hrhs

/-- A statement, malformed or not, ends in its first semicolon or has a brace before it. -/
theorem statement_shape (h : Yields b [.nonterminal .statement] ps rs) :
    StatementShape (kindsOf ps) := by
  obtain ⟨r, ss, hr, hrhs, -⟩ | ⟨body, m, rfl, -⟩ := h.statement_inv
  · cases r with
    | ifThen =>
      obtain ⟨x, qs, ss, hx, hq, hps⟩ :=
        plain_append_inv (u := Rule.ifThen.rhs.dropLast) (v := [.nonterminal .simple])
          (by decide) hrhs
      obtain ⟨y, hy, hqs⟩ := hq.simple_shape
      refine .line (x ++ y) ?_ (by rw [hps, hqs, List.append_assoc])
      intro k hk
      exact (List.mem_append.1 hk).elim (hx k) (hy k)
    | whileDo =>
      obtain ⟨x, y, hx, hps⟩ := plain_brace (u := Rule.whileDo.rhs.take 4)
        (v := Rule.whileDo.rhs.drop 5) (by decide) hrhs
      exact .block x y hx hps
    | declare =>
      obtain ⟨x, hx, hps⟩ :=
        plain_semicolon (u := Rule.declare.rhs.dropLast) (by decide) hrhs
      exact .line x hx hps
    | declareInit =>
      obtain ⟨x, hx, hps⟩ :=
        plain_semicolon (u := Rule.declareInit.rhs.dropLast) (by decide) hrhs
      exact .line x hx hps
    | simpleStatement =>
      obtain ⟨x, hx, hps⟩ := simple_shape hrhs
      exact .line x hx hps
    | _ => cases hr
  · exact .line body (fun k hk => (m.inner k hk).1) (by simp)

/-- A function has a brace, and no semicolon in front of its first brace. -/
theorem function_shape (h : Yields b [.nonterminal .function] ps rs) :
    ∃ x y, (∀ k ∈ x, separates k = false) ∧ kindsOf ps = x ++ .punctuation .openBrace :: y := by
  obtain ⟨r, ss, hr, hrhs, -⟩ := h.rule_inv rfl
  cases r with
  | function => exact plain_brace (u := [.nonterminal .head]) (by decide) hrhs
  | _ => cases hr

end Yields

end Pdl
