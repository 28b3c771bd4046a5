import Pdl.Proofs.Content
import Pdl.Proofs.Lexing.LongestMatch

/-!
# Lexemes and blanks

Blanks at a cursor have no part in the content of the text
(`contentTokens_move`), and they may be passed one by one
(`contentTokens_move_one`).

A lexeme of the content ends in front of a blank and at the end of the text,
whatever follows (`munch_append_of_apart`).  For a word and a number cannot go on
with a blank, no operator is made longer by one, and a string ends at its second
quote.
-/

namespace Pdl

/-! ## Blanks -/

theorem contentTokens_of_blank {c : Cursor} {ch : Char} {cs : List Char} (hc : c.rest = ch :: cs)
    (h : isBlank ch = true ∨ (c.position.offset == 0) = true ∧ ch = byteOrderMark) :
    contentTokens (tokensFrom (c.move (1 + runLength isBlank cs)))
      = contentTokens (tokensFrom c) := by
  have htoken : munch (c.position.offset == 0) c.rest = (.whitespace, 1 + runLength isBlank cs) := by
    rw [hc, munch_blank h]
  have hkind : (tokenAt c).1.isTrivia = true := by
    simp [tokenAt, htoken, Token.isTrivia, TokenKind.isTrivia]
  have hlength : (tokenAt c).2 = 1 + runLength isBlank cs := by simp [tokenAt, htoken]
  rw [tokensFrom_of_rest_ne_nil (c := c) (by simp [hc]), contentTokens_cons_of_trivia hkind,
    hlength]

/-- The blanks at a cursor are one token or none. -/
theorem contentTokens_skipWhile (c : Cursor) :
    contentTokens (tokensFrom (c.skipWhile isBlank)) = contentTokens (tokensFrom c) := by
  have hskip : c.skipWhile isBlank = c.move (runLength isBlank c.rest) := rfl
  cases hc : c.rest with
  | nil => rw [hskip, hc, runLength, List.takeWhile_nil, List.length_nil, Cursor.move_zero]
  | cons ch cs =>
    cases hblank : isBlank ch with
    | false => rw [hskip, hc, runLength_of_head hblank, Cursor.move_zero]
    | true =>
      have hlength : runLength isBlank (ch :: cs) = 1 + runLength isBlank cs := by
        rw [runLength, runLength, List.takeWhile_cons_of_pos hblank, List.length_cons,
          Nat.add_comm]
      rw [hskip, hc, hlength, contentTokens_of_blank hc (.inl hblank)]

/-- A blank at a cursor may be passed on its own. -/
theorem contentTokens_move_one {c : Cursor} {ch : Char} {cs : List Char} (hc : c.rest = ch :: cs)
    (h : isBlank ch = true ∨ (c.position.offset == 0) = true ∧ ch = byteOrderMark) :
    contentTokens (tokensFrom (c.move 1)) = contentTokens (tokensFrom c) := by
  have hskip : (c.move 1).skipWhile isBlank = c.move (1 + runLength isBlank cs) := by
    change (c.move 1).move (runLength isBlank (c.rest.drop 1)) = _
    rw [hc, Cursor.move_move]
    rfl
  rw [← contentTokens_skipWhile, hskip, contentTokens_of_blank hc h]

/-- Blanks have no part in the content. -/
theorem contentTokens_move {c : Cursor} {blanks rest : List Char}
    (hblanks : ∀ b ∈ blanks, isBlank b = true) (h : c.rest = blanks ++ rest) :
    contentTokens (tokensFrom (c.move blanks.length)) = contentTokens (tokensFrom c) := by
  have hrest : (c.move blanks.length).rest = rest := by simp [Cursor.move, h]
  have hskip : (c.move blanks.length).skipWhile isBlank = c.skipWhile isBlank := by
    change (c.move blanks.length).move (runLength isBlank (c.move blanks.length).rest)
      = c.move (runLength isBlank c.rest)
    rw [hrest, h, runLength_append hblanks, Cursor.move_move]
  rw [← contentTokens_skipWhile, hskip, contentTokens_skipWhile]

/-! ## Lexemes in front of blanks -/

/-- The text is empty or begins with a blank. -/
def Apart (r : List Char) : Prop := ∀ c ∈ r.head?, isBlank c = true

instance (r : List Char) : Decidable (Apart r) :=
  decidable_of_iff (r.head?.all isBlank = true) (Option.all_eq_true isBlank r.head?)

theorem runLength_of_apart {p : Char → Bool} (hp : ∀ c, p c = true → isBlank c = false)
    {r : List Char} (hr : Apart r) : runLength p r = 0 := by
  cases r with
  | nil => rfl
  | cons c r =>
    have hc : isBlank c = true := hr c rfl
    refine runLength_of_head ?_ r
    cases h : p c with
    | false => rfl
    | true =>
      rw [hp c h] at hc
      cases hc

theorem isBlank_of_isDigit {c : Char} (h : c.isDigit = true) : isBlank c = false :=
  (isBlank_of_isWordRest (by rw [isWordRest, h, Bool.or_true])).1

/-- A text that begins with a character that is no blank does not stand apart. -/
theorem Apart.ne_cons {r : List Char} (hr : Apart r) {c : Char} (hc : isBlank c = false)
    (t : List Char) : r ≠ c :: t := by
  rintro rfl
  have h : isBlank c = true := hr c rfl
  rw [hc] at h
  cases h

section

variable {atStart : Bool} {r : List Char}

theorem munch_word_le {c : Char} {cs : List Char} (hc : isWordStart c = true)
    (hcs : ∀ d ∈ cs, isWordRest d = true) (hr : Apart r) :
    (munch atStart (c :: cs ++ r)).2 ≤ (c :: cs).length := by
  have hlength := runLength_append (isWordRest_of_mem_word hc hcs) r
  rw [runLength_of_apart (fun d hd => (isBlank_of_isWordRest hd).1) hr] at hlength
  rw [List.cons_append, munch_wordStart hc, ← List.cons_append, munchWord]
  exact Nat.le_of_eq hlength

theorem munch_integer_le {ds : List Char} (hne : ds ≠ []) (hds : ∀ d ∈ ds, d.isDigit = true)
    (hr : Apart r) : (munch atStart (ds ++ r)).2 ≤ ds.length := by
  obtain ⟨d, ds, rfl⟩ := List.exists_cons_of_ne_nil hne
  have hlength := runLength_append hds r
  rw [runLength_of_apart (fun _ => isBlank_of_isDigit) hr, Nat.add_zero] at hlength
  have hrest : ∀ t, (d :: ds ++ r).drop (runLength Char.isDigit (d :: ds ++ r)) ≠ '.' :: t := by
    rw [hlength, List.drop_left]
    exact hr.ne_cons (by decide)
  rw [List.cons_append, munch_digit (hds d (.head _)), ← List.cons_append,
    munchNumber.eq_1]
  split
  · rename_i h
    exact absurd h (hrest _)
  · exact Nat.le_of_eq hlength

theorem munch_float_le {ds es : List Char} (hne : ds ≠ []) (hds : ∀ d ∈ ds, d.isDigit = true)
    (hne' : es ≠ []) (hes : ∀ d ∈ es, d.isDigit = true) (hr : Apart r) :
    (munch atStart (ds ++ '.' :: es ++ r)).2 ≤ (ds ++ '.' :: es).length := by
  have hnumber := munchNumber_float hds hne' hes r
  rw [runLength_append hes, runLength_of_apart (fun _ => isBlank_of_isDigit) hr] at hnumber
  obtain ⟨d, ds, rfl⟩ := List.exists_cons_of_ne_nil hne
  rw [List.append_assoc, List.cons_append, List.cons_append, munch_digit (hds d (.head _)),
    ← List.cons_append, hnumber]
  simp only [List.length_append, List.length_cons]
  omega

theorem munch_string_le {cs : List Char} (hcs : ∀ c ∈ cs, c ≠ '"' ∧ c ≠ '\n') (r : List Char) :
    (munch atStart ('"' :: (cs ++ ['"']) ++ r)).2 ≤ ('"' :: (cs ++ ['"'])).length := by
  have hsplit : '"' :: (cs ++ ['"']) ++ r = '"' :: (cs ++ '"' :: r) := by simp
  rw [hsplit, munch_quote, munchQuote_string hcs]
  simp

theorem munch_operator_le (o : Operator) (hr : Apart r) :
    (munch atStart (o.spelling.toList ++ r)).2 ≤ o.spelling.toList.length := by
  have hequals : ∀ t, r = '=' :: t → False := hr.ne_cons (by decide)
  cases o with
  | plus =>
    change (munch atStart ('+' :: r)).2 ≤ 1
    rw [munch_mark (by decide), munchMark.eq_2 r hequals]
  | plusAssign =>
    change (munch atStart ('+' :: '=' :: r)).2 ≤ 2
    rw [munch_mark (by decide), munchMark]
  | assign =>
    change (munch atStart ('=' :: r)).2 ≤ 1
    rw [munch_mark (by decide), munchMark.eq_4 r hequals]
  | equal =>
    change (munch atStart ('=' :: '=' :: r)).2 ≤ 2
    rw [munch_mark (by decide), munchMark]
  | not =>
    change (munch atStart ('!' :: r)).2 ≤ 1
    rw [munch_mark (by decide), munchMark]

end

section

variable {atStart : Bool} {k : TokenKind} {w : List Char}

/-- Only a blank depends on whether it stands at the beginning of the text. -/
theorem InClass.of_content (h : InClass atStart k w) (hk : k.isTrivia = false) (b : Bool) :
    InClass b k w := by
  cases h with
  | keyword k => exact .keyword k
  | identifier hc hcs hspelling => exact .identifier hc hcs hspelling
  | integer hne hds => exact .integer hne hds
  | float hne hds hne' hes => exact .float hne hds hne' hes
  | string hcs => exact .string hcs
  | operator o => exact .operator o
  | punctuation p => exact .punctuation p
  | blanks | byteOrderMark | lineComment | blockComment => cases hk

theorem InClass.munch_le (h : InClass atStart k w) (hk : k.isTrivia = false) {r : List Char}
    (hr : Apart r) : (munch atStart (w ++ r)).2 ≤ w.length := by
  cases h with
  | keyword k =>
    obtain ⟨c, cs, hspelling, hc, hcs⟩ := exists_word_of_keyword k
    rw [hspelling]
    exact munch_word_le hc (List.all_eq_true.1 hcs) hr
  | identifier hc hcs hspelling =>
    exact munch_word_le (isWordStart_iff.2 hc) (fun d hd => isWordRest_iff.2 (hcs d hd)) hr
  | integer hne hds => exact munch_integer_le hne hds hr
  | float hne hds hne' hes => exact munch_float_le hne hds hne' hes hr
  | string hcs => exact munch_string_le hcs r
  | operator o => exact munch_operator_le o hr
  | punctuation p =>
    rw [List.cons_append, munch_punctuation]
    exact Nat.le_refl 1
  | blanks | byteOrderMark | lineComment | blockComment => cases hk

/-- A lexeme of the content ends in front of a blank and at the end of the text. -/
theorem InClass.munch_append_of_apart (h : InClass atStart k w) (hk : k.isTrivia = false)
    {r : List Char} (hr : Apart r) : munch atStart (w ++ r) = (k, w.length) := by
  have hcovers := h.covers r
  have hlength := Nat.le_antisymm (h.munch_le hk hr) hcovers.le
  exact Prod.ext (hcovers.same hlength) hlength

end

end Pdl
