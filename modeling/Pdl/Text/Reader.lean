/-!
# Readers

A reader takes a text as a list of characters and reads a value from its
front.  It answers the value with the characters after it, or nothing where
the front has not the right form.
-/

namespace Pdl

/-- Reads a value from the front of a text, and answers the rest as well. -/
abbrev Reader (α : Type) := List Char → Option (α × List Char)

/-- What follows a character at the front. -/
def after? (c : Char) : List Char → Option (List Char)
  | d :: r => if d = c then some r else none
  | [] => none

theorem length_after? {c : Char} {cs r : List Char} (h : after? c cs = some r) :
    r.length ≤ cs.length := by
  cases cs with
  | nil => cases h
  | cons d cs =>
    by_cases hd : d = c
    · rw [after?, if_pos hd] at h
      cases h; exact Nat.le_succ _
    · rw [after?, if_neg hd] at h
      cases h

/-- The value of a hexadecimal digit. -/
def hexValue? (c : Char) : Option Nat :=
  if c.isDigit then some (c.toNat - '0'.toNat)
  else if 'a' ≤ c ∧ c ≤ 'f' then some (c.toNat - 'a'.toNat + 10)
  else if 'A' ≤ c ∧ c ≤ 'F' then some (c.toNat - 'A'.toNat + 10)
  else none

/-- The number that hexadecimal digits write after `n`. -/
def hexNumberFrom? (n : Nat) : List Char → Option Nat
  | [] => some n
  | c :: cs => do hexNumberFrom? (16 * n + (← hexValue? c)) cs

/-- The number that the first `n` characters write in base 16. -/
def hexNumber? (n : Nat) : Reader Nat := fun cs =>
  if n ≤ cs.length then (hexNumberFrom? 0 (cs.take n)).map fun m => (m, cs.drop n) else none

theorem length_hexNumber? {n m : Nat} {cs r : List Char} (h : hexNumber? n cs = some (m, r)) :
    r.length ≤ cs.length := by
  unfold hexNumber? at h
  split at h
  · obtain ⟨_, _, h⟩ := Option.map_eq_some_iff.1 h
    cases h
    exact List.length_drop ▸ Nat.sub_le ..
  · cases h

end Pdl
