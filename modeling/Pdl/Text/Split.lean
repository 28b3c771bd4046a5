/-!
# Parts of a text

A text splits at a separator into parts, empty ones included, so there is one
part more than there are separators.  A text on both sides of a separator splits
into the parts of the two sides (`splitAtChar_append`).
-/

namespace Pdl

/-- The parts of a text between the separators. -/
def splitAtChar (separator : Char) : List Char → List (List Char)
  | [] => [[]]
  | c :: cs =>
      if c = separator then [] :: splitAtChar separator cs
      else match splitAtChar separator cs with
        | [] => [[c]]
        | p :: ps => (c :: p) :: ps

theorem length_splitAtChar (separator : Char) (cs : List Char) :
    (splitAtChar separator cs).length = cs.count separator + 1 := by
  fun_induction splitAtChar separator cs <;> simp_all

theorem splitAtChar_ne_nil (separator : Char) (cs : List Char) : splitAtChar separator cs ≠ [] := by
  rw [← List.length_pos_iff, length_splitAtChar]
  exact Nat.succ_pos _

theorem splitAtChar_of_not_mem {separator : Char} {cs : List Char} (h : separator ∉ cs) :
    splitAtChar separator cs = [cs] := by
  induction cs with
  | nil => rfl
  | cons c cs ih =>
    rw [List.mem_cons, not_or] at h
    rw [splitAtChar, if_neg (Ne.symm h.1), ih h.2]

theorem splitAtChar_append (separator : Char) (as bs : List Char) :
    splitAtChar separator (as ++ separator :: bs)
      = splitAtChar separator as ++ splitAtChar separator bs := by
  induction as with
  | nil => simp [splitAtChar]
  | cons a as ih =>
    rw [List.cons_append, splitAtChar, splitAtChar, ih]
    split
    · rfl
    · obtain ⟨p, ps, hparts⟩ := List.exists_cons_of_ne_nil (splitAtChar_ne_nil separator as)
      rw [hparts]
      rfl

/-- What stands in front of the first separator, and what behind it. -/
theorem eq_of_append_separator {separator : Char} {as as' bs bs' : List Char}
    (has : separator ∉ as) (has' : separator ∉ as')
    (h : as ++ separator :: bs = as' ++ separator :: bs') : as = as' ∧ bs = bs' := by
  have hsplit := congrArg (splitAtChar separator) h
  rw [splitAtChar_append, splitAtChar_append, splitAtChar_of_not_mem has,
    splitAtChar_of_not_mem has'] at hsplit
  obtain rfl : as = as' := (List.cons_eq_cons.1 hsplit).1
  exact ⟨rfl, (List.cons_eq_cons.1 (List.append_cancel_left h)).2⟩

end Pdl
