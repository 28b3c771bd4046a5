import Mathlib.Data.List.Chain
import Pdl.Proofs.Lexing.LongestMatch
import Pdl.Proofs.Lexing.Places

/-!
# Tokens tile the text

The tokens of a text lie side by side from its first byte to its last, and no
byte is in two of them.  The text is put together again from the lexemes, and
each lexeme is what the text has at the place of its token.

A token ends at the cursor at which the next one begins.  So the tokens from a
cursor make a chain (`isChain_tokensFrom`), their lexemes are what is left of
the text there (`flatMap_lexeme_tokensFrom`), and each of them moves the cursor
on, or else it closes the list (`length_tokensFrom_le`).
-/

namespace Pdl

/-- The tokens `ts` lie side by side in the text `s`, from its beginning to its end. -/
structure Tiles (s : Source) (ts : List Token) : Prop where
  /-- The lexemes make up the text. -/
  join : String.join (ts.map (·.lexeme)) = s.content
  /-- The first token starts where the text does. -/
  first : ts.head?.map (·.span.start) = some 0
  /-- Each later token starts where the one before it stops. -/
  adjacent : ts.IsChain fun t u => t.span.stop = u.span.start
  /-- The last token stops where the text does. -/
  last : ts.getLast?.map (·.span.stop) = some s.size
  /-- A span covers the lexeme of its token, and ends between characters. -/
  slice : ∀ t ∈ ts, s.slice t.span = .ok t.lexeme.toList

/-! ## Tokens from a cursor -/

theorem flatMap_lexeme_tokensFrom (c : Cursor) :
    (tokensFrom c).flatMap (·.lexeme.toList) = c.rest := by
  fun_induction tokensFrom c with
  | case1 c h => simp [tokenAt_of_rest_nil h, h]
  | case2 c h ih =>
    rw [List.flatMap_cons, ih, lexeme_tokenAt]
    exact List.take_append_drop _ _

theorem head?_tokensFrom (c : Cursor) : (tokensFrom c).head? = some (tokenAt c).1 := by
  rw [tokensFrom_eq, List.head?_cons]

/-- Each token stops where the next one starts. -/
theorem isChain_tokensFrom (c : Cursor) :
    (tokensFrom c).IsChain fun t u => t.span.stop = u.span.start := by
  fun_induction tokensFrom c with
  | case1 c h => exact .singleton _
  | case2 c h ih =>
    refine List.IsChain.cons ih ?_
    intro u hu
    rw [head?_tokensFrom] at hu
    cases hu
    exact stop_tokenAt c

/-- The last token is the end of the text. -/
theorem getLast?_tokensFrom_eq (c : Cursor) :
    (tokensFrom c).getLast? = some ⟨.endOfInput, "",
      .between (c.position.after c.rest) (c.position.after c.rest)⟩ := by
  fun_induction tokensFrom c with
  | case1 c h => simp [tokenAt_of_rest_nil h, h]
  | case2 c h ih =>
    have hne : tokensFrom (c.move (tokenAt c).2) ≠ [] := by
      rw [tokensFrom_eq]
      exact List.cons_ne_nil _ _
    have hafter : (c.move (tokenAt c).2).position.after (c.move (tokenAt c).2).rest
        = c.position.after c.rest := by
      rw [Cursor.position_move, ← Position.after_append]
      exact congrArg c.position.after (List.take_append_drop _ _)
    rw [List.getLast?_cons_of_ne_nil hne, ih, hafter]

theorem getLast?_tokensFrom (c : Cursor) :
    (tokensFrom c).getLast?.map (·.span.stop) = some (c.position.after c.rest).offset := by
  rw [getLast?_tokensFrom_eq]
  rfl

/-- Each token but the last has a character. -/
theorem length_tokensFrom_le (c : Cursor) : (tokensFrom c).length ≤ c.rest.length + 1 := by
  fun_induction tokensFrom c with
  | case1 c h => simp
  | case2 c h ih =>
    have hmove := length_rest_move_tokenAt h
    rw [List.length_cons]
    omega

/-- The span of a token covers its lexeme. -/
theorem slice_tokenAt {s : Source} {c : Cursor} (hplaced : c.Placed)
    (hc : c.text = s.content.toList) :
    s.slice (tokenAt c).1.span = .ok (tokenAt c).1.lexeme.toList := by
  have hstart : (tokenAt c).1.span.start = byteCount c.passed.reverse := by
    change c.position.offset = _
    rw [hplaced, Position.start_after]
  have hstop : (tokenAt c).1.span.stop
      = byteCount c.passed.reverse + byteCount (c.rest.take (tokenAt c).2) := by
    rw [stop_tokenAt, Cursor.position_move, Position.offset_after, ← hstart]
    rfl
  have hsplit : s.content.toList = c.passed.reverse
      ++ (c.rest.take (tokenAt c).2 ++ c.rest.drop (tokenAt c).2) := by
    rw [List.take_append_drop]
    exact hc.symm
  rw [Source.slice, hstart, hstop, if_neg (by omega), hsplit, sliceBytes_append, lexeme_tokenAt]

/-! ## Tokens of a text -/

theorem toList_join_lexemes (ts : List Token) :
    (String.join (ts.map (·.lexeme))).toList = ts.flatMap (·.lexeme.toList) := by
  rw [String.toList_join, List.flatMap_map]

/-- The tokens of a text tile it.  All but the last have a character, and the last alone is
of kind `endOfInput`; so there is at most one more of them than the text has characters. -/
theorem tiles_tokens (limits : Limits) (name text : String) :
    Tiles ⟨name, text⟩ (tokenize limits text).tokens ∧
      (∃ ts e, (tokenize limits text).tokens = ts ++ [e] ∧ e.kind = .endOfInput ∧
        ∀ t ∈ ts, t.kind ≠ .endOfInput ∧ t.lexeme ≠ "") ∧
      (tokenize limits text).tokens.length ≤ text.length + 1 := by
  rw [tokenize_eq]
  refine ⟨?_, ?_, ?_⟩
  · constructor
    · rw [← String.toList_inj, toList_join_lexemes]
      exact flatMap_lexeme_tokensFrom (.ofText text)
    · change (tokensFrom (.ofText text)).head?.map _ = _
      rw [head?_tokensFrom]
      rfl
    · exact isChain_tokensFrom (.ofText text)
    · refine (getLast?_tokensFrom (.ofText text)).trans ?_
      rw [Position.offset_after]
      exact congrArg some (Nat.zero_add _)
    · intro t ht
      obtain ⟨c, hplaced, hc, rfl⟩ :=
        exists_cursor_of_mem_tokensFrom (Cursor.placed_ofText text) ht
      exact slice_tokenAt hplaced hc
  · obtain ⟨ts, e, hts, he, hlexemes⟩ := exists_lexemes_tokensFrom (.ofText text)
    refine ⟨ts, e, hts, he, ?_⟩
    intro t ht
    obtain ⟨b, part, hpart, hnext⟩ := hlexemes.exists_nextLexeme
      (List.mem_map_of_mem (f := fun t => (t.kind, t.lexeme.toList)) ht)
    refine ⟨hnext.kind_ne_endOfInput, ?_⟩
    intro hempty
    exact hnext.ne_nil hpart (by rw [hempty]; rfl)
  · exact length_tokensFrom_le (.ofText text)

end Pdl
