import Pdl.Grammar.Derivation

/-!
# Rightmost derivations

A rightmost step rewrites the nonterminal that only terminals follow
(`expandLast?_eq_some_iff`).  So it does not depend on what stands in front of
the place, nor on the terminals that stand behind it, and a whole rightmost
derivation may be put in front of any list of terminals
(`expandAll?_append_terminals`).

A rightmost derivation is a derivation (`derives_of_expandAll?`).
-/

namespace Pdl

/-- A word as a list of symbols. -/
def terminals (w : List TokenKind) : List GrammarSymbol := w.map .terminal

@[simp] theorem terminals_nil : terminals [] = [] := rfl

@[simp] theorem terminals_cons (k : TokenKind) (w : List TokenKind) :
    terminals (k :: w) = .terminal k :: terminals w := rfl

@[simp] theorem terminals_append (v w : List TokenKind) :
    terminals (v ++ w) = terminals v ++ terminals w := List.map_append

theorem terminals_reverse (w : List TokenKind) :
    (terminals w).reverse = terminals w.reverse := by
  simp [terminals]

/-! ## One step -/

theorem expandFirstReversed?_eq_some {r : Rule} {u v : List GrammarSymbol}
    (h : expandFirstReversed? r u = some v) :
    ∃ x p, u = terminals x ++ .nonterminal r.lhs :: p ∧
      v = terminals x ++ (r.rhs.reverse ++ p) := by
  induction u generalizing v with
  | nil => cases h
  | cons s u ih =>
    cases s with
    | terminal k =>
      rw [expandFirstReversed?, Option.map_eq_some_iff] at h
      obtain ⟨v', hv', rfl⟩ := h
      obtain ⟨x, p, rfl, rfl⟩ := ih hv'
      exact ⟨k :: x, p, rfl, rfl⟩
    | nonterminal n =>
      rw [expandFirstReversed?] at h
      split at h
      · rename_i hn
        cases h
        subst hn
        exact ⟨[], u, rfl, rfl⟩
      · cases h

theorem expandFirstReversed?_terminals (r : Rule) (x : List TokenKind)
    (p : List GrammarSymbol) :
    expandFirstReversed? r (terminals x ++ .nonterminal r.lhs :: p)
      = some (terminals x ++ (r.rhs.reverse ++ p)) := by
  induction x with
  | nil => simp [expandFirstReversed?]
  | cons k x ih => simp [expandFirstReversed?, ih]

/-- A rightmost step rewrites the nonterminal in front of the last terminals. -/
theorem expandLast?_eq_some_iff {r : Rule} {u v : List GrammarSymbol} :
    expandLast? r u = some v ↔
      ∃ p x, u = p ++ .nonterminal r.lhs :: terminals x ∧ v = p ++ r.rhs ++ terminals x := by
  constructor
  · intro h
    rw [expandLast?, Option.map_eq_some_iff] at h
    obtain ⟨v', hv', rfl⟩ := h
    obtain ⟨x, p, hu, rfl⟩ := expandFirstReversed?_eq_some hv'
    refine ⟨p.reverse, x.reverse, ?_, ?_⟩
    · rw [← List.reverse_reverse u, hu]
      simp [terminals_reverse]
    · simp [terminals_reverse]
  · rintro ⟨p, x, rfl, rfl⟩
    have hu : (p ++ .nonterminal r.lhs :: terminals x).reverse
        = terminals x.reverse ++ .nonterminal r.lhs :: p.reverse := by
      simp [terminals_reverse]
    rw [expandLast?, hu, expandFirstReversed?_terminals]
    simp [terminals_reverse]

theorem expandLast?_append_left {r : Rule} {u v : List GrammarSymbol}
    (h : expandLast? r u = some v) (a : List GrammarSymbol) :
    expandLast? r (a ++ u) = some (a ++ v) := by
  obtain ⟨p, x, rfl, rfl⟩ := expandLast?_eq_some_iff.1 h
  exact expandLast?_eq_some_iff.2 ⟨a ++ p, x, by simp, by simp⟩

theorem expandLast?_append_terminals {r : Rule} {u v : List GrammarSymbol}
    (h : expandLast? r u = some v) (w : List TokenKind) :
    expandLast? r (u ++ terminals w) = some (v ++ terminals w) := by
  obtain ⟨p, x, rfl, rfl⟩ := expandLast?_eq_some_iff.1 h
  exact expandLast?_eq_some_iff.2 ⟨p, x ++ w, by simp, by simp⟩

theorem expands_of_expandLast? {r : Rule} {u v : List GrammarSymbol}
    (h : expandLast? r u = some v) : Expands u v := by
  obtain ⟨p, x, rfl, rfl⟩ := expandLast?_eq_some_iff.1 h
  exact .rule r p (terminals x)

/-! ## Many steps -/

theorem expandAll?_cons_eq_some_iff {r : Rule} {rs : List Rule} {u v : List GrammarSymbol} :
    expandAll? (r :: rs) u = some v ↔ ∃ t, expandLast? r u = some t ∧ expandAll? rs t = some v :=
  Option.bind_eq_some_iff

/-- A step before a derivation. -/
theorem expandAll?_cons {r : Rule} {rs : List Rule} {u t v : List GrammarSymbol}
    (h : expandLast? r u = some t) (k : expandAll? rs t = some v) :
    expandAll? (r :: rs) u = some v :=
  expandAll?_cons_eq_some_iff.2 ⟨t, h, k⟩

/-- Derivations compose. -/
theorem expandAll?_append {rs qs : List Rule} {u t v : List GrammarSymbol}
    (h : expandAll? rs u = some t) (k : expandAll? qs t = some v) :
    expandAll? (rs ++ qs) u = some v := by
  induction rs generalizing u with
  | nil =>
    cases h
    exact k
  | cons r rs ih =>
    obtain ⟨t', ht', hrest⟩ := expandAll?_cons_eq_some_iff.1 h
    exact expandAll?_cons ht' (ih hrest)

theorem expandAll?_append_terminals {rs : List Rule} {u v : List GrammarSymbol}
    (h : expandAll? rs u = some v) (w : List TokenKind) :
    expandAll? rs (u ++ terminals w) = some (v ++ terminals w) := by
  induction rs generalizing u with
  | nil =>
    cases h
    rfl
  | cons r rs ih =>
    obtain ⟨t, ht, hrest⟩ := expandAll?_cons_eq_some_iff.1 h
    exact expandAll?_cons (expandLast?_append_terminals ht w) (ih hrest)

/-- A rightmost derivation is a derivation. -/
theorem derives_of_expandAll? (rs : List Rule) {u v : List GrammarSymbol}
    (h : expandAll? rs u = some v) : Derives u v := by
  induction rs generalizing u with
  | nil =>
    cases h
    exact .refl _
  | cons r rs ih =>
    obtain ⟨t, ht, hrest⟩ := expandAll?_cons_eq_some_iff.1 h
    exact .step (expands_of_expandLast? ht) (ih hrest)

end Pdl
