import Pdl.Proofs.Lexing.Tokens
import Pdl.Proofs.Text.LineIndex

/-!
# Places of tokens

A cursor keeps its position up to date while it moves.  The invariant is that
the position is the one after all characters passed, from the beginning of the
text (`Cursor.Placed`).  `move` is the one way to move, so it holds wherever a
token begins (`exists_cursor_of_mem_tokensFrom`), and the index of lines finds
the token there (`locates_tokens`).
-/

namespace Pdl

/-- The position of a cursor is the one after what it has passed. -/
def Cursor.Placed (c : Cursor) : Prop := c.position = Position.start.after c.passed.reverse

theorem Cursor.placed_ofText (text : String) : (Cursor.ofText text).Placed := rfl

theorem Cursor.Placed.move {c : Cursor} (h : c.Placed) (n : Nat) : (c.move n).Placed := by
  rw [Cursor.Placed, Cursor.position_move, h, ← Position.after_append]
  simp [Cursor.move]

/-- Each token begins at a cursor of the same text. -/
theorem exists_cursor_of_mem_tokensFrom {c : Cursor} {t : Token} (hc : c.Placed)
    (ht : t ∈ tokensFrom c) : ∃ d : Cursor, d.Placed ∧ d.text = c.text ∧ t = (tokenAt d).1 := by
  fun_induction tokensFrom c with
  | case1 c h => exact ⟨c, hc, rfl, List.mem_singleton.1 ht⟩
  | case2 c h ih =>
    rcases List.mem_cons.1 ht with rfl | ht
    · exact ⟨c, hc, rfl, rfl⟩
    · obtain ⟨d, hd, htext, hat⟩ := ih (hc.move _) ht
      exact ⟨d, hd, by rw [htext, Cursor.text_move], hat⟩

/-- No token from a cursor starts before it. -/
theorem offset_le_of_mem_tokensFrom {c : Cursor} {t : Token} (ht : t ∈ tokensFrom c) :
    c.position.offset ≤ t.span.start := by
  fun_induction tokensFrom c with
  | case1 c h =>
    rw [List.mem_singleton.1 ht]
    exact Nat.le_refl _
  | case2 c h ih =>
    rcases List.mem_cons.1 ht with rfl | ht
    · exact Nat.le_refl _
    · have hmove := ih ht
      rw [Cursor.position_move, Position.offset_after] at hmove
      omega

/-- In front of the end a token has a character. -/
theorem take_tokenAt_ne_nil {c : Cursor} (h : c.rest ≠ []) : c.rest.take (tokenAt c).2 ≠ [] := by
  simp [h, Nat.ne_of_gt (length_tokenAt_pos h)]

/-- The tokens start at later and later places. -/
theorem pairwise_start_tokensFrom (c : Cursor) :
    (tokensFrom c).Pairwise fun t u => t.span.start < u.span.start := by
  fun_induction tokensFrom c with
  | case1 c h => exact List.pairwise_singleton _ _
  | case2 c h ih =>
    refine List.pairwise_cons.2 ⟨?_, ih⟩
    intro u hu
    have hle := offset_le_of_mem_tokensFrom hu
    have hpos := byteCount_pos (take_tokenAt_ne_nil h)
    rw [Cursor.position_move, Position.offset_after] at hle
    change c.position.offset < u.span.start
    omega

theorem position_tokenAt (c : Cursor) : (tokenAt c).1.span.position = c.position := rfl

/-- A token stands where the index of lines finds it, and its line and column fit into
32 bits. -/
theorem locates_tokens {text : String} (htext : text.toList.length < UInt32.size - 1)
    (name : String) (limits : Limits) {t : Token} (ht : t ∈ (tokenize limits text).tokens) :
    (∃ before, (Source.mk name text).Locates t.span.position before) ∧
      t.span.line < UInt32.size ∧ t.span.column < UInt32.size := by
  rw [tokenize_eq] at ht
  obtain ⟨c, hplaced, hc, rfl⟩ :=
    exists_cursor_of_mem_tokensFrom (Cursor.placed_ofText text) ht
  have hsplit : text.toList = c.passed.reverse ++ c.rest := hc.symm
  have hlocates : (Source.mk name text).Locates (tokenAt c).1.span.position c.passed.reverse := by
    rw [position_tokenAt, hplaced]
    exact Source.locates_start_after hsplit
  have hlength : c.passed.reverse.length ≤ text.toList.length := by
    rw [hsplit, List.length_append]
    exact Nat.le_add_right _ _
  refine ⟨⟨_, hlocates⟩, ?_, ?_⟩
  · have hline : (tokenAt c).1.span.line = 1 + c.passed.reverse.count '\n' := hlocates.line_eq
    have hcount := List.count_le_length (a := '\n') (l := c.passed.reverse)
    omega
  · have hcolumn : (tokenAt c).1.span.column = 1 + (lastLine c.passed.reverse).length :=
      hlocates.column_eq
    have hlast := length_lastLine_le c.passed.reverse
    omega

/-- The blanks after an unfinished string whose line ends in a carriage return. -/
theorem locates_brokenString :
    "\"é\r\n ".toList.length < UInt32.size - 1 ∧
      Token.mk .whitespace "\n " ⟨4, 6, 1, 4⟩ ∈ (tokenize {} "\"é\r\n ").tokens ∧
      ∃ before, (Source.mk "main" "\"é\r\n ").Locates ⟨1, 4, 4⟩ before := by
  have hlength : "\"é\r\n ".toList.length < UInt32.size - 1 := by decide
  have ht : Token.mk .whitespace "\n " ⟨4, 6, 1, 4⟩ ∈ (tokenize {} "\"é\r\n ").tokens := by
    decide +kernel
  exact ⟨hlength, ht, (locates_tokens hlength "main" {} ht).1⟩

end Pdl
