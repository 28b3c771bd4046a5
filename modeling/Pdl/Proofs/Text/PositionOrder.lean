import Pdl.Proofs.Text.Boundaries
import Pdl.Text.Position

/-!
# The order of positions

A newline begins a new line and any other character a new column of its line.  So
what stands behind a character is later by line and column (`precedes_after`), though
the column of a later line may be smaller and the bytes are not looked at.

Positions in one text are in the order of their offsets (`order_start_after`), for of
two first parts of a text the one of fewer bytes is a first part of the other.
-/

namespace Pdl

/-- The place `p` is in an earlier line than `q`, or in an earlier column of its line. -/
def Position.Precedes (p q : Position) : Prop :=
  p.line < q.line ∨ p.line = q.line ∧ p.column < q.column

namespace Position

variable {p q r : Position}

theorem Precedes.trans (h : p.Precedes q) (h' : q.Precedes r) : p.Precedes r := by
  simp only [Precedes] at *
  omega

theorem precedes_advance (p : Position) (c : Char) : p.Precedes (p.advance c) := by
  rw [advance]
  split
  · exact .inl (Nat.lt_succ_self _)
  · exact .inr ⟨rfl, Nat.lt_succ_self _⟩

theorem precedes_after {cs : List Char} (h : cs ≠ []) (p : Position) :
    p.Precedes (p.after cs) := by
  induction cs generalizing p with
  | nil => exact absurd rfl h
  | cons c cs ih =>
    rw [after_cons]
    by_cases hcs : cs = []
    · rw [hcs]
      exact precedes_advance p c
    · exact (precedes_advance p c).trans (ih hcs _)

/-! ## Comparing -/

theorem Precedes.order_eq_lt (h : p.Precedes q) : p.order q = .lt := by
  rw [order]
  rcases h with hline | ⟨hline, hcolumn⟩
  · rw [Nat.compare_eq_lt.2 hline]
    rfl
  · rw [Nat.compare_eq_eq.2 hline, Nat.compare_eq_lt.2 hcolumn]
    rfl

theorem Precedes.order_eq_gt (h : p.Precedes q) : q.order p = .gt := by
  rw [order]
  rcases h with hline | ⟨hline, hcolumn⟩
  · rw [Nat.compare_eq_gt.2 hline]
    rfl
  · rw [Nat.compare_eq_eq.2 hline.symm, Nat.compare_eq_gt.2 hcolumn]
    rfl

theorem order_self (p : Position) : p.order p = .eq := by
  simp [order]

/-- Behind more bytes of a text the position is a later one. -/
theorem precedes_start_after {as bs cs : List Char} (has : as <+: cs) (hbs : bs <+: cs)
    (h : byteCount as < byteCount bs) : (start.after as).Precedes (start.after bs) := by
  obtain ⟨w, rfl⟩ := prefix_of_byteCount_le has hbs (Nat.le_of_lt h)
  have hw : w ≠ [] := by
    rintro rfl
    rw [List.append_nil] at h
    exact Nat.lt_irrefl _ h
  rw [after_append]
  exact precedes_after hw _

/-- Positions behind two first parts of a text are in the order of their offsets. -/
theorem order_start_after {as bs cs : List Char} (has : as <+: cs) (hbs : bs <+: cs) :
    (start.after as).order (start.after bs) = compare (byteCount as) (byteCount bs) := by
  rcases Nat.lt_trichotomy (byteCount as) (byteCount bs) with hlt | heq | hgt
  · rw [Nat.compare_eq_lt.2 hlt]
    exact (precedes_start_after has hbs hlt).order_eq_lt
  · rw [Nat.compare_eq_eq.2 heq, eq_of_byteCount_eq has hbs heq]
    exact order_self _
  · rw [Nat.compare_eq_gt.2 hgt]
    exact (precedes_start_after hbs has hgt).order_eq_gt

end Position

end Pdl
