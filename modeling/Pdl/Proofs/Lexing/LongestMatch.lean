import Mathlib.Data.List.TakeWhile
import Pdl.Proofs.Lexing.Tokens
import Pdl.Proofs.Lexing.Classes
import Pdl.Proofs.Text.LineIndex

/-!
# Longest match

`Lexemes` cuts a text from its front.  Each time `NextLexeme` takes the longest
piece that is a lexeme of some class, and a piece of kind `invalid` where no
piece is one; that piece is `invalidPart`.

What `munch` reads is a lexeme of its class or the invalid part of the text
(`classified_munch`), and no lexeme that the text begins with is longer
(`InClass.covers`).  So it reads the next lexeme (`nextLexeme_munch`), and there
is no other (`NextLexeme.unique`).

The tokens of a text are its lexemes, in their order, and a token of kind
`endOfInput` (`exists_lexemes_tokensFrom`).
-/

namespace Pdl

/-! ## What is read is classified -/

/-- The invalid lexeme at the front of a text that begins with no lexeme of a class. -/
def invalidPart : List Char → List Char
  | '"' :: cs => '"' :: cs.takeWhile (· != '\n')
  | '/' :: '*' :: cs => '/' :: '*' :: cs
  | c :: _ => [c]
  | [] => []

theorem invalidPart_of_ne {c : Char} (hquote : c ≠ '"') (hslash : c ≠ '/') (cs : List Char) :
    invalidPart (c :: cs) = [c] :=
  invalidPart.eq_3 c cs hquote fun _ hc => absurd hc hslash

theorem invalidPart_ne_nil {cs : List Char} (h : cs ≠ []) : invalidPart cs ≠ [] := by
  fun_cases invalidPart cs with
  | case4 => exact absurd rfl h
  | _ => simp

/-- A kind and a length, as read at the front of `cs`. -/
inductive Classified (atStart : Bool) (cs : List Char) : TokenKind × Nat → Prop where
  /-- A lexeme of its class. -/
  | valid {k : TokenKind} {n : Nat} (h : InClass atStart k (cs.take n)) :
      Classified atStart cs (k, n)
  /-- An invalid lexeme. -/
  | invalid {n : Nat} (h : cs.take n = invalidPart cs) : Classified atStart cs (.invalid, n)

section

variable {atStart : Bool} {c : Char}

theorem classified_blank (hc : isBlank c = true ∨ atStart = true ∧ c = byteOrderMark)
    (cs : List Char) :
    Classified atStart (c :: cs) (.whitespace, 1 + runLength isBlank cs) := by
  have htake : (c :: cs).take (1 + runLength isBlank cs) = c :: cs.takeWhile isBlank := by
    rw [Nat.add_comm, List.take_succ_cons, take_runLength]
  have hrest : ∀ d ∈ cs.takeWhile isBlank, isBlank d = true := fun d hd => List.mem_takeWhile_imp hd
  refine .valid ?_
  rw [htake]
  rcases hc with hc | ⟨hstart, rfl⟩
  · refine .blanks (by simp) ?_
    intro d hd
    rcases List.mem_cons.1 hd with rfl | hd
    · exact hc
    · exact hrest d hd
  · exact .byteOrderMark hstart hrest

theorem classified_slash (cs : List Char) :
    Classified atStart ('/' :: cs) (munchSlash cs) := by
  fun_cases munchSlash cs with
  | case1 cs =>
    refine .valid ?_
    have htake : ('/' :: '/' :: cs).take (2 + runLength (· != '\n') cs)
        = '/' :: '/' :: cs.takeWhile (· != '\n') := by
      rw [Nat.add_comm, List.take_succ_cons, List.take_succ_cons, take_runLength]
    rw [htake]
    refine .lineComment ?_
    intro h
    simpa using List.mem_takeWhile_imp h
  | case2 cs n h =>
    obtain ⟨ds, hds, hfirst⟩ := exists_of_commentEnd? h
    refine .valid ?_
    rw [Nat.add_comm, List.take_succ_cons, List.take_succ_cons, hds]
    exact .blockComment hfirst
  | case3 cs h =>
    refine .invalid ?_
    rw [List.take_of_length_le (by simp only [List.length_cons]; omega)]
    rfl
  | case4 cs _ hstar =>
    exact .invalid (invalidPart.eq_3 '/' cs (by decide)
      fun r _ hr => hstar r hr).symm

/-- Without a closing quote in its line a string runs to the end of the line. -/
theorem takeWhile_isStringChar {cs : List Char}
    (h : cs[runLength isStringChar cs]? ≠ some '"') :
    cs.takeWhile isStringChar = cs.takeWhile (· != '\n') := by
  induction cs with
  | nil => rfl
  | cons c cs ih =>
    by_cases hc : isStringChar c = true
    · have hline : (c != '\n') = true := by
        rw [isStringChar, Bool.and_eq_true] at hc
        exact hc.2
      have hlength : runLength isStringChar (c :: cs) = runLength isStringChar cs + 1 := by
        simp [runLength, hc]
      rw [hlength, List.getElem?_cons_succ] at h
      rw [List.takeWhile_cons_of_pos hc, List.takeWhile_cons, if_pos hline, ih h]
    · rw [Bool.not_eq_true] at hc
      rw [runLength_of_head hc] at h
      have hline : (c != '\n') = false := by
        have hquote : c ≠ '"' := by simpa using h
        simpa [isStringChar, hquote] using hc
      simp [hc, hline]

theorem classified_quote (cs : List Char) : Classified atStart ('"' :: cs) (munchQuote cs) := by
  have hrun := take_runLength isStringChar cs
  by_cases hquote : cs[runLength isStringChar cs]? = some '"'
  · rw [munchQuote, if_pos hquote]
    refine .valid ?_
    rw [List.take_succ_cons, List.take_add_one, hquote, hrun]
    refine .string ?_
    intro c hc
    simpa [isStringChar] using List.mem_takeWhile_imp hc
  · rw [munchQuote, if_neg hquote]
    refine .invalid ?_
    rw [List.take_succ_cons, hrun, takeWhile_isStringChar hquote, invalidPart]

theorem classified_word (hc : isWordStart c = true) (cs : List Char) :
    Classified atStart (c :: cs) (munchWord (c :: cs)) := by
  have hrest : isWordRest c = true := by rw [isWordRest, hc, Bool.true_or]
  refine .valid ?_
  rw [take_runLength, List.takeWhile_cons_of_pos hrest]
  exact inClass_word hc fun d hd => List.mem_takeWhile_imp hd

theorem classified_number (hc : c.isDigit = true) (cs : List Char) :
    Classified atStart (c :: cs) (munchNumber (c :: cs)) := by
  have hne : (c :: cs).takeWhile Char.isDigit ≠ [] := by simp [hc]
  have hdigits : ∀ (ds : List Char), ∀ d ∈ ds.takeWhile Char.isDigit, d.isDigit = true :=
    fun ds d hd => List.mem_takeWhile_imp hd
  have hinteger : InClass atStart .integer ((c :: cs).take (runLength Char.isDigit (c :: cs))) := by
    rw [take_runLength]
    exact .integer hne (hdigits _)
  fun_cases munchNumber (c :: cs) with
  | case1 n fraction h hn => exact .valid hinteger
  | case2 n fraction h m hm =>
    refine .valid ?_
    have hfraction : fraction.take (m + 1) = fraction.takeWhile Char.isDigit := by
      rw [show m + 1 = runLength Char.isDigit fraction from hm.symm, take_runLength]
    have hne' : fraction.takeWhile Char.isDigit ≠ [] := by
      intro hnil
      rw [runLength, hnil] at hm
      cases hm
    rw [Nat.add_assoc, Nat.add_comm 1, List.take_add, h, List.take_succ_cons, hfraction,
      take_runLength]
    exact .float hne (hdigits _) hne' (hdigits _)
  | case3 n h => exact .valid hinteger

theorem classified_mark {cs : List Char} (hne : cs ≠ []) (h : invalidPart cs = cs.take 1) :
    Classified atStart cs (munchMark cs) := by
  fun_cases munchMark cs with
  | case1 => exact .valid (.operator .plusAssign)
  | case2 => exact .valid (.operator .plus)
  | case3 => exact .valid (.operator .equal)
  | case4 => exact .valid (.operator .assign)
  | case5 => exact .valid (.operator .not)
  | case6 c cs _ _ _ _ _ p hp =>
    have hchar : p.char = c := by simpa using List.find?_some hp
    refine .valid ?_
    rw [← hchar]
    exact .punctuation p
  | case7 => exact .invalid h.symm
  | case8 => exact absurd rfl hne

end

theorem classified_munch (atStart : Bool) (c : Char) (cs : List Char) :
    Classified atStart (c :: cs) (munch atStart (c :: cs)) := by
  rw [munch]
  split
  · rename_i hblank
    exact classified_blank (by simpa using hblank) cs
  split
  · rename_i hslash
    rw [beq_iff_eq.1 hslash]
    exact classified_slash cs
  split
  · rename_i hquote
    rw [beq_iff_eq.1 hquote]
    exact classified_quote cs
  split
  · exact classified_word (by assumption) cs
  split
  · exact classified_number (by assumption) cs
  · rename_i hslash hquote _ _
    rw [beq_iff_eq] at hslash hquote
    exact classified_mark (by simp) (invalidPart_of_ne hquote hslash cs)

/-! ## The next lexeme -/

/-- The lexeme at the front of `cs`. -/
inductive NextLexeme (atStart : Bool) (cs : List Char) : TokenKind → List Char → Prop where
  /-- It is the longest piece at the front that is a lexeme of a class. -/
  | longest {k : TokenKind} {w : List Char} (hclass : InClass atStart k w) (hfront : w <+: cs)
      (hlongest : ∀ k' w', InClass atStart k' w' → w' <+: cs → w'.length ≤ w.length) :
      NextLexeme atStart cs k w
  /-- Where there is no such piece it is invalid. -/
  | invalid (hnone : ∀ k w, InClass atStart k w → ¬ w <+: cs) :
      NextLexeme atStart cs .invalid (invalidPart cs)

/-- A text cut into lexemes.  Only the first of them can stand at the beginning of the source
text. -/
inductive Lexemes : Bool → List Char → List (TokenKind × List Char) → Prop where
  | nil {atStart : Bool} : Lexemes atStart [] []
  | cons {atStart : Bool} {cs : List Char} {k : TokenKind} {w : List Char}
      {ls : List (TokenKind × List Char)} (hcs : cs ≠ []) (hnext : NextLexeme atStart cs k w)
      (hrest : Lexemes false (cs.drop w.length) ls) : Lexemes atStart cs ((k, w) :: ls)

section

variable {atStart : Bool} {cs : List Char} {k : TokenKind} {w : List Char}

theorem NextLexeme.unique {k' : TokenKind} {w' : List Char} (h : NextLexeme atStart cs k w)
    (h' : NextLexeme atStart cs k' w') : k = k' ∧ w = w' := by
  cases h with
  | longest hclass hfront hlongest =>
    cases h' with
    | longest hclass' hfront' hlongest' =>
      have hlength : w.length = w'.length :=
        Nat.le_antisymm (hlongest' k w hclass hfront) (hlongest k' w' hclass' hfront')
      obtain rfl : w = w' :=
        (List.prefix_of_prefix_length_le hfront hfront' hlength.le).eq_of_length hlength
      exact ⟨hclass.kind_unique hclass', rfl⟩
    | invalid hnone => exact absurd hfront (hnone k w hclass)
  | invalid hnone =>
    cases h' with
    | longest hclass hfront => exact absurd hfront (hnone k' w' hclass)
    | invalid => exact ⟨rfl, rfl⟩

theorem nextLexeme_munch (atStart : Bool) (hcs : cs ≠ []) :
    NextLexeme atStart cs (munch atStart cs).1 (cs.take (munch atStart cs).2) := by
  obtain ⟨c, cs, rfl⟩ := List.exists_cons_of_ne_nil hcs
  have hread := classified_munch atStart c cs
  have hle := munch_le atStart (c :: cs)
  have hcovers : ∀ k w, InClass atStart k w → w <+: c :: cs →
      Covers (munch atStart (c :: cs)) k w.length := by
    rintro k w hclass ⟨r, hr⟩
    rw [← hr]
    exact hclass.covers r
  generalize munch atStart (c :: cs) = m at hread hle hcovers
  cases hread with
  | @valid k n hclass =>
    refine .longest hclass (List.take_prefix _ _) ?_
    intro k' w' hclass' hfront
    rw [List.length_take_of_le hle]
    exact (hcovers k' w' hclass' hfront).le
  | @invalid n h =>
    rw [h]
    refine .invalid ?_
    intro k w hclass hfront
    exact (hcovers k w hclass hfront).valid rfl

theorem NextLexeme.ne_nil (h : NextLexeme atStart cs k w) (hcs : cs ≠ []) : w ≠ [] := by
  cases h with
  | longest hclass => exact hclass.ne_nil
  | invalid => exact invalidPart_ne_nil hcs

theorem NextLexeme.kind_ne_endOfInput (h : NextLexeme atStart cs k w) : k ≠ .endOfInput := by
  cases h with
  | longest hclass => exact hclass.kind_ne_endOfInput
  | invalid => simp

theorem NextLexeme.inClass (h : NextLexeme atStart cs k w) (hkind : k ≠ .invalid) :
    InClass atStart k w := by
  cases h with
  | longest hclass => exact hclass
  | invalid => exact absurd rfl hkind

end

/-! ## All lexemes -/

/-- There is one way to cut a text into lexemes. -/
theorem Lexemes.unique {atStart : Bool} {cs : List Char} {ls ls' : List (TokenKind × List Char)}
    (h : Lexemes atStart cs ls) (h' : Lexemes atStart cs ls') : ls = ls' := by
  induction h generalizing ls' with
  | nil =>
    cases h' with
    | nil => rfl
    | cons hcs => exact absurd rfl hcs
  | cons hcs hnext hrest ih =>
    cases h' with
    | nil => exact absurd rfl hcs
    | cons hcs' hnext' hrest' =>
      obtain ⟨rfl, rfl⟩ := hnext.unique hnext'
      rw [ih hrest']

/-- Each lexeme of a text is the next one of a part that is not empty. -/
theorem Lexemes.exists_nextLexeme {atStart : Bool} {cs : List Char}
    {ls : List (TokenKind × List Char)} (h : Lexemes atStart cs ls) {l : TokenKind × List Char}
    (hl : l ∈ ls) : ∃ b part, part ≠ [] ∧ NextLexeme b part l.1 l.2 := by
  induction h with
  | nil => cases hl
  | cons hcs hnext hrest ih =>
    rcases List.mem_cons.1 hl with rfl | hl
    · exact ⟨_, _, hcs, hnext⟩
    · exact ih hl

/-- Only the first lexeme stands at the beginning of the text. -/
theorem offset_move_tokenAt {c : Cursor} (h : c.rest ≠ []) :
    ((c.move (tokenAt c).2).position.offset == 0) = false := by
  have hnext := nextLexeme_munch (c.position.offset == 0) h
  have hpos := byteCount_pos (hnext.ne_nil h)
  rw [Cursor.position_move, Position.offset_after, beq_eq_false_iff_ne]
  simp only [tokenAt]
  omega

/-- The tokens from a cursor are the lexemes of the rest, and one of kind `endOfInput`. -/
theorem exists_lexemes_tokensFrom (c : Cursor) :
    ∃ ts e, tokensFrom c = ts ++ [e] ∧ e.kind = .endOfInput ∧
      Lexemes (c.position.offset == 0) c.rest (ts.map fun t => (t.kind, t.lexeme.toList)) := by
  fun_induction tokensFrom c with
  | case1 c h =>
    refine ⟨[], (tokenAt c).1, rfl, ?_, ?_⟩
    · rw [tokenAt_of_rest_nil h]
    · rw [h]
      exact .nil
  | case2 c h ih =>
    obtain ⟨ts, e, hts, hkind, hrest⟩ := ih
    refine ⟨(tokenAt c).1 :: ts, e, by rw [hts, List.cons_append], hkind, ?_⟩
    have hlength : (c.rest.take (tokenAt c).2).length = (tokenAt c).2 :=
      List.length_take_of_le (munch_le _ _)
    rw [offset_move_tokenAt h] at hrest
    rw [List.map_cons, lexeme_tokenAt]
    refine .cons h (nextLexeme_munch _ h) ?_
    rw [hlength]
    exact hrest

/-- A token closes the list or is a lexeme of the text. -/
theorem nextLexeme_of_mem_tokensFrom {c : Cursor} {t : Token} (ht : t ∈ tokensFrom c) :
    t.kind = .endOfInput ∨
      ∃ b part, part ≠ [] ∧ NextLexeme b part t.kind t.lexeme.toList := by
  obtain ⟨ts, e, hts, he, hlexemes⟩ := exists_lexemes_tokensFrom c
  rw [hts] at ht
  rcases List.mem_append.1 ht with ht | ht
  · exact .inr (hlexemes.exists_nextLexeme
      (List.mem_map_of_mem (f := fun t => (t.kind, t.lexeme.toList)) ht))
  · rw [List.mem_singleton.1 ht]
    exact .inl he

/-- The tokens from a cursor end in the only one of kind `endOfInput`. -/
theorem exists_end_tokensFrom (c : Cursor) :
    ∃ ts e, tokensFrom c = ts ++ [e] ∧ (∀ t ∈ ts, t.kind ≠ .endOfInput) ∧
      e.kind = .endOfInput := by
  obtain ⟨ts, e, hts, he, hlexemes⟩ := exists_lexemes_tokensFrom c
  refine ⟨ts, e, hts, ?_, he⟩
  intro t ht
  obtain ⟨b, part, -, hnext⟩ :=
    hlexemes.exists_nextLexeme (List.mem_map_of_mem (f := fun t => (t.kind, t.lexeme.toList)) ht)
  exact hnext.kind_ne_endOfInput

/-- The tokens of a text are, but for the last, its lexemes by longest match. -/
theorem tokens_longest_match (limits : Limits) (text : String) :
    ∃ ts e, (tokenize limits text).tokens = ts ++ [e] ∧ e.kind = .endOfInput ∧
      (∀ t ∈ ts, t.kind ≠ .endOfInput) ∧
      ∀ ls, Lexemes true text.toList ls ↔ ls = ts.map fun t => (t.kind, t.lexeme.toList) := by
  obtain ⟨ts, e, hts, he, hlexemes⟩ := exists_lexemes_tokensFrom (.ofText text)
  rw [tokenize_eq]
  refine ⟨ts, e, hts, he, ?_, ?_⟩
  · intro t ht
    obtain ⟨b, part, hpart, hnext⟩ :=
      hlexemes.exists_nextLexeme (List.mem_map_of_mem (f := fun t => (t.kind, t.lexeme.toList)) ht)
    exact hnext.kind_ne_endOfInput
  · intro ls
    constructor
    · intro h
      exact h.unique hlexemes
    · rintro rfl
      exact hlexemes

end Pdl
