import Pdl.Grammar.Rule

/-!
# Derivations

A list of symbols is expanded by putting the right side of a rule in the
place of its left side.  `Derives` is any number of such steps, and
`Generates n w` says that the nonterminal `n` can be expanded into the kinds
of tokens `w`.

A rightmost step expands the last nonterminal.  It is a function of the rule
(`expandLast?`), so a list of rules stands for at most one rightmost
derivation (`expandAll?`).
-/

namespace Pdl

/-! ## Any derivation -/

/-- One expansion step, anywhere in the list. -/
inductive Expands : List GrammarSymbol → List GrammarSymbol → Prop where
  | rule (r : Rule) (u v : List GrammarSymbol) :
      Expands (u ++ .nonterminal r.lhs :: v) (u ++ r.rhs ++ v)

/-- Any number of expansion steps. -/
inductive Derives : List GrammarSymbol → List GrammarSymbol → Prop where
  | refl (u : List GrammarSymbol) : Derives u u
  | step {u v w : List GrammarSymbol} : Expands u v → Derives v w → Derives u w

/-- The nonterminal `n` can be expanded into `w`. -/
def Generates (n : Nonterminal) (w : List TokenKind) : Prop :=
  Derives [.nonterminal n] (w.map .terminal)

theorem Derives.trans {u v w : List GrammarSymbol} (h : Derives u v) (k : Derives v w) :
    Derives u w := by
  induction h with
  | refl => exact k
  | step s _ ih => exact .step s (ih k)

theorem Expands.append {u v : List GrammarSymbol} (h : Expands u v)
    (a b : List GrammarSymbol) : Expands (a ++ u ++ b) (a ++ v ++ b) := by
  cases h with
  | rule r p q =>
    have := Expands.rule r (a ++ p) (q ++ b)
    simpa [List.append_assoc] using this

theorem Derives.append {u v : List GrammarSymbol} (h : Derives u v)
    (a b : List GrammarSymbol) : Derives (a ++ u ++ b) (a ++ v ++ b) := by
  induction h with
  | refl => exact .refl _
  | step s _ ih => exact .step (s.append a b) ih

/-! ## Rightmost derivations -/

/-- Expands the first nonterminal of a list that is read from its end.  The answer is
read from its end too. -/
def expandFirstReversed? (r : Rule) : List GrammarSymbol → Option (List GrammarSymbol)
  | [] => none
  | .terminal k :: u => (expandFirstReversed? r u).map (.terminal k :: ·)
  | .nonterminal n :: u => if n = r.lhs then some (r.rhs.reverse ++ u) else none

/-- Expands the last nonterminal of a list, if it is the left side of the rule. -/
def expandLast? (r : Rule) (u : List GrammarSymbol) : Option (List GrammarSymbol) :=
  (expandFirstReversed? r u.reverse).map List.reverse

/-- The rightmost derivation by a list of rules. -/
def expandAll? : List Rule → List GrammarSymbol → Option (List GrammarSymbol)
  | [], u => some u
  | r :: rs, u => (expandLast? r u).bind (expandAll? rs)

example : expandAll? [.accept, .programEnd] [.nonterminal .input]
    = some [.terminal .endOfInput] := by decide

end Pdl
