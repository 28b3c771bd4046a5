import Pdl.Text.Reader

/-!
# Digits

The digits of a number in base ten, as they are printed, and in base sixteen, as
escapes have them.  No number but zero begins with the digit zero
(`exists_toDigits_eq_cons`).
-/

namespace Pdl

/-! ## Base ten -/

theorem isDigit_of_mem_toDigits {n : Nat} {c : Char} (h : c ∈ Nat.toDigits 10 n) :
    c.isDigit = true :=
  Nat.isDigit_of_mem_toDigits (by decide) (by decide) h

theorem ofDigitChars_toDigits (n : Nat) : Nat.ofDigitChars 10 (Nat.toDigits 10 n) 0 = n :=
  Nat.ofDigitChars_toDigits (by decide) (by decide)

/-- A number has a digit. -/
theorem exists_digits (n : Nat) :
    ∃ d ds, Nat.toDigits 10 n = d :: ds ∧ d.isDigit = true ∧ ∀ e ∈ ds, e.isDigit = true := by
  obtain ⟨d, ds, hds⟩ := List.exists_cons_of_ne_nil (Nat.toDigits_ne_nil (n := n) (b := 10))
  have hdigits : ∀ e ∈ d :: ds, e.isDigit = true := fun e he => isDigit_of_mem_toDigits (hds ▸ he)
  exact ⟨d, ds, hds, List.forall_mem_cons.1 hdigits⟩

/-- What begins with a number begins with no other character. -/
theorem toDigits_append_ne {c : Char} (hc : c.isDigit = false) (n : Nat) (r y : List Char) :
    Nat.toDigits 10 n ++ r ≠ c :: y := by
  obtain ⟨d, ds, hds, hd, -⟩ := exists_digits n
  rw [hds, List.cons_append]
  intro h
  rw [(List.cons.inj h).1, hc] at hd
  cases hd

/-- A number that is not zero begins with another digit. -/
theorem exists_toDigits_eq_cons {n : Nat} (h : n ≠ 0) :
    ∃ d ds, Nat.toDigits 10 n = d :: ds ∧ d ≠ '0' := by
  induction n using Nat.strongRecOn with
  | _ n ih =>
    by_cases hn : n < 10
    · have hdigit : ∀ m < 10, m ≠ 0 → Nat.digitChar m ≠ '0' := by decide
      rw [Nat.toDigits_of_lt_base hn]
      exact ⟨_, [], rfl, hdigit n hn h⟩
    · obtain ⟨d, ds, hds, hd⟩ := ih (n / 10) (by omega) (by omega)
      rw [Nat.toDigits_of_base_le (by decide) (by omega), hds]
      exact ⟨d, _, rfl, hd⟩

/-- The digits of a number end where the first other character stands. -/
theorem takeWhile_toDigits {r : List Char} (hr : ∀ c ∈ r.head?, c.isDigit = false) (n : Nat) :
    (Nat.toDigits 10 n ++ r).takeWhile Char.isDigit = Nat.toDigits 10 n := by
  rw [List.takeWhile_append_of_pos fun c => isDigit_of_mem_toDigits]
  cases r with
  | nil => simp
  | cons c r => simp [hr c rfl]

theorem dropWhile_toDigits {r : List Char} (hr : ∀ c ∈ r.head?, c.isDigit = false) (n : Nat) :
    (Nat.toDigits 10 n ++ r).dropWhile Char.isDigit = r := by
  rw [List.dropWhile_append_of_pos fun c => isDigit_of_mem_toDigits]
  cases r with
  | nil => rfl
  | cons c r => simp [hr c rfl]

/-! ## Base sixteen -/

theorem hexNumber?_four {w x y z : Char} {a b c d : Nat} (hw : hexValue? w = some a)
    (hx : hexValue? x = some b) (hy : hexValue? y = some c) (hz : hexValue? z = some d)
    (r : List Char) :
    hexNumber? 4 (w :: x :: y :: z :: r) = some (16 * (16 * (16 * a + b) + c) + d, r) := by
  simp [hexNumber?, hexNumberFrom?, hw, hx, hy, hz]

end Pdl
