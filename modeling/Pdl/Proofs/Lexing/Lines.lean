import Mathlib.Tactic.SplitIfs
import Pdl.Proofs.Lexing.Symbols
import Pdl.Proofs.Lexing.Words

/-!
# Texts line by line

A text that ends its last line and leaves no comment open can be cut into tokens
apart from what follows it (`joins_of_closed_line`).  The tokens of what follows are
those that it has as a text of its own, further down.

* In front of a newline no lexeme but a blank looks past the end of the text, for
  none of them takes the newline and stops there (`munch_append`).  A blank may go
  on with the blanks of the next line, and it is no part of the content.  So the
  tokens of the first text stay as they are (`Continues.splitsContent`).
* The position says only where a token stands, but for a byte order mark at the
  beginning.  So the tokens at a cursor further down are those at the cursor
  above (`tokensFrom_down`).
-/

namespace Pdl

/-! ## Lexemes in front of a newline -/

section

variable {p : Char → Bool} {x : List Char}

theorem runLength_lt_of_mem {c : Char} (hc : c ∈ x) (hp : p c = false) :
    runLength p x < x.length := by
  refine Nat.lt_of_le_of_ne (runLength_le p x) ?_
  intro hlength
  have hall : x.takeWhile p = x := (List.takeWhile_prefix p).eq_of_length hlength
  have hc' := List.takeWhile_eq_self_iff.1 hall c hc
  rw [hp] at hc'
  cases hc'

/-- A row that stops within a text does not depend on what follows. -/
theorem runLength_append_of_lt (h : runLength p x < x.length) (y : List Char) :
    runLength p (x ++ y) = runLength p x := by
  have hne : (x.takeWhile p).length ≠ x.length := Nat.ne_of_lt h
  rw [runLength, List.takeWhile_append, if_neg hne]
  rfl

theorem mem_drop_runLength {c : Char} (hc : c ∈ x) (hp : p c = false) :
    c ∈ x.drop (runLength p x) := by
  rw [← List.take_append_drop (runLength p x) x, take_runLength] at hc
  rcases List.mem_append.1 hc with hc | hc
  · have hc' := List.mem_takeWhile_imp hc
    rw [hp] at hc'
    cases hc'
  · exact hc

end

theorem commentEnd?_append_right {x : List Char} {n : Nat} (h : commentEnd? x = some n)
    (y : List Char) : commentEnd? (x ++ y) = some n := by
  obtain ⟨ds, hds, hfirst⟩ := exists_of_commentEnd? h
  have hlength : n = ds.length + 2 := by
    have := congrArg List.length hds
    rw [List.length_take_of_le (commentEnd?_le h)] at this
    simpa using this
  have hsplit : x ++ y = ds ++ '*' :: '/' :: (x.drop n ++ y) :=
    calc
      x ++ y = x.take n ++ x.drop n ++ y := by rw [List.take_append_drop]
      _ = ds ++ '*' :: '/' :: (x.drop n ++ y) := by
        rw [hds]
        simp
  rw [hsplit, commentEnd?_append hfirst, hlength]

section

variable {x : List Char}

theorem munchSlash_append (hx : '\n' ∈ x) (hclosed : ∀ cs, x = '*' :: cs → commentEnd? cs ≠ none)
    (y : List Char) : munchSlash (x ++ y) = munchSlash x := by
  fun_cases munchSlash x with
  | case1 cs =>
    have hcs : '\n' ∈ cs := by simpa using hx
    rw [List.cons_append, munchSlash, runLength_append_of_lt (runLength_lt_of_mem hcs (by decide))]
  | case2 cs n h => rw [List.cons_append, munchSlash, commentEnd?_append_right h]
  | case3 cs h => exact absurd h (hclosed cs rfl)
  | case4 _ hslash hstar =>
    obtain ⟨c, cs, rfl⟩ := List.exists_cons_of_ne_nil (List.ne_nil_of_mem hx)
    refine munchSlash.eq_3 _ ?_ ?_
    · intro t ht
      exact hslash cs (by rw [(List.cons_eq_cons.1 ht).1])
    · intro t ht
      exact hstar cs (by rw [(List.cons_eq_cons.1 ht).1])

theorem munchQuote_append (hx : '\n' ∈ x) (y : List Char) :
    munchQuote (x ++ y) = munchQuote x := by
  have hlt := runLength_lt_of_mem (p := isStringChar) hx (by decide)
  rw [munchQuote, munchQuote, runLength_append_of_lt hlt, List.getElem?_append_left hlt]

theorem munchWord_append (hx : '\n' ∈ x) (y : List Char) :
    munchWord (x ++ y) = munchWord x := by
  have hlt := runLength_lt_of_mem (p := isWordRest) hx (by decide)
  rw [munchWord, munchWord, runLength_append_of_lt hlt, List.take_append_of_le_length hlt.le]

theorem munchNumber_append (hx : '\n' ∈ x) (y : List Char) :
    munchNumber (x ++ y) = munchNumber x := by
  have hlt := runLength_lt_of_mem (p := Char.isDigit) hx (by decide)
  have hrest := mem_drop_runLength (p := Char.isDigit) hx (by decide)
  rw [munchNumber, munchNumber, runLength_append_of_lt hlt,
    List.drop_append_of_le_length hlt.le]
  generalize x.drop (runLength Char.isDigit x) = r at hrest
  obtain ⟨d, ds, rfl⟩ := List.exists_cons_of_ne_nil (List.ne_nil_of_mem hrest)
  by_cases hd : d = '.'
  · subst hd
    have hds : '\n' ∈ ds := by simpa using hrest
    simp only [List.cons_append,
      runLength_append_of_lt (runLength_lt_of_mem (p := Char.isDigit) hds (by decide))]
  · simp [hd]

/-- A mark is told by its first two characters. -/
theorem munchMark_append (c : Char) (hx : x ≠ []) (y : List Char) :
    munchMark (c :: x ++ y) = munchMark (c :: x) := by
  obtain ⟨d, x, rfl⟩ := List.exists_cons_of_ne_nil hx
  simp only [List.cons_append]
  by_cases hplus : c = '+'
  · by_cases hd : d = '=' <;> simp [hplus, hd, munchMark]
  by_cases hequal : c = '='
  · by_cases hd : d = '=' <;> simp [hequal, hd, munchMark]
  by_cases hnot : c = '!'
  · simp [hnot, munchMark]
  · have hother := fun r => munchMark.eq_6 c r (fun _ h => absurd h hplus) hplus
      (fun _ h => absurd h hequal) hequal hnot
    rw [hother, hother]

/-- No lexeme but a blank looks past a newline. -/
theorem munch_append {atStart : Bool} {c : Char}
    (hc : ¬ (isBlank c = true ∨ atStart = true ∧ c = byteOrderMark)) (hx : '\n' ∈ c :: x)
    (hclosed : ∀ cs, c :: x = '/' :: '*' :: cs → commentEnd? cs ≠ none) (y : List Char) :
    munch atStart (c :: x ++ y) = munch atStart (c :: x) := by
  have hne : c ≠ '\n' := by
    rintro rfl
    exact hc (.inl (by decide))
  have hrest : '\n' ∈ x := by simpa [Ne.symm hne] using hx
  simp only [List.cons_append, munch]
  split_ifs with hblank hslash
  · exact absurd (by simpa using hblank) hc
  · refine munchSlash_append hrest ?_ y
    rintro cs rfl
    exact hclosed cs (by rw [beq_iff_eq.1 hslash])
  · exact munchQuote_append hrest y
  · exact munchWord_append hx y
  · exact munchNumber_append hx y
  · exact munchMark_append c (List.ne_nil_of_mem hrest) y

end

/-! ## Tokens in front of a newline -/

theorem EndsLine.drop {x : List Char} (h : EndsLine x) (n : Nat) : EndsLine (x.drop n) := by
  rcases h with rfl | ⟨ds, rfl⟩
  · exact .inl List.drop_nil
  · rcases List.suffix_concat_iff.1 (List.drop_suffix n (ds ++ ['\n'])) with h | ⟨t, h, -⟩
    · exact .inl h
    · exact .inr ⟨t, h⟩

theorem EndsLine.newline_mem {x : List Char} (h : EndsLine x) (hne : x ≠ []) : '\n' ∈ x := by
  rcases h with rfl | ⟨ds, rfl⟩
  · exact absurd rfl hne
  · simp

/-- The cursor `c` stands where `d` does, and its text goes on with `y`. -/
structure Cursor.Continues (y : List Char) (d c : Cursor) : Prop where
  position : c.position = d.position
  rest : c.rest = d.rest ++ y

/-- A block comment without its end. -/
def Token.IsOpenComment (t : Token) : Prop :=
  t.kind = .invalid ∧ ∃ cs, t.lexeme.toList = '/' :: '*' :: cs

theorem Token.IsOpenComment.exists_diagnostic {t : Token} (h : t.IsOpenComment)
    (limits : Limits) :
    ∃ d, t.lexicalDiagnostic? limits = some d ∧ d.code = some .unterminatedComment := by
  obtain ⟨hk, cs, hcs⟩ := h
  refine ⟨LexicalFault.unterminatedComment.diagnostic t.span, ?_, rfl⟩
  rw [lexicalDiagnostic?, hk, LexicalFault.find?, hcs]
  rfl

theorem Token.IsOpenComment.isTrivia {t : Token} (h : t.IsOpenComment) : t.isTrivia = false := by
  rw [Token.isTrivia, h.1]
  rfl

section

variable {y : List Char} {c d : Cursor}

theorem Cursor.Continues.take (h : d.Continues y c) {n : Nat} (hn : n ≤ d.rest.length) :
    c.rest.take n = d.rest.take n := by
  rw [h.rest, List.take_append_of_le_length hn]

theorem Cursor.Continues.move (h : d.Continues y c) {n : Nat} (hn : n ≤ d.rest.length) :
    (d.move n).Continues y (c.move n) where
  position := by rw [position_move, position_move, h.position, h.take hn]
  rest := by
    change c.rest.drop n = d.rest.drop n ++ y
    rw [h.rest, List.drop_append_of_le_length hn]

theorem Cursor.Continues.tokenAt_eq (h : d.Continues y c)
    (hmunch : munch (d.position.offset == 0) (d.rest ++ y)
      = munch (d.position.offset == 0) d.rest) : tokenAt c = tokenAt d := by
  have hle := munch_le (d.position.offset == 0) d.rest
  have htake := h.take hle
  rw [h.rest] at htake
  simp only [tokenAt, h.position, h.rest, hmunch, htake, (h.move hle).position]

theorem isOpenComment_tokenAt {cs : List Char} (hd : d.rest = '/' :: '*' :: cs)
    (h : commentEnd? cs = none) : (tokenAt d).1.IsOpenComment := by
  have htoken : munch (d.position.offset == 0) d.rest = (.invalid, d.rest.length) := by
    rw [hd, munch_slash, munchSlash, h, Nat.add_comm]
    rfl
  refine ⟨by simp [tokenAt, htoken], cs, ?_⟩
  rw [lexeme_tokenAt, tokenAt, htoken, List.take_length, hd]

theorem Cursor.Continues.tokenAt_of_not_blank (h : d.Continues y c) {ch : Char} {cs : List Char}
    (hd : d.rest = ch :: cs)
    (hblank : ¬ (isBlank ch = true ∨ (d.position.offset == 0) = true ∧ ch = byteOrderMark))
    (hends : EndsLine d.rest) (hclosed : ¬ (tokenAt d).1.IsOpenComment) :
    tokenAt c = tokenAt d := by
  refine h.tokenAt_eq ?_
  have hnewline := hends.newline_mem (by simp [hd])
  rw [hd] at hnewline ⊢
  refine munch_append hblank hnewline ?_ y
  intro ds hds hnone
  exact hclosed (isOpenComment_tokenAt (hd.trans hds) hnone)

/-- The content from `c` is the content from `d`, without its end, and then that from `c'`. -/
def SplitsContent (c d c' : Cursor) : Prop :=
  ∃ ts e, contentTokens (tokensFrom d) = ts ++ [e] ∧ e.kind = .endOfInput ∧
    contentTokens (tokensFrom c) = ts ++ contentTokens (tokensFrom c')

theorem splitsContent_of_rest_nil (hd : d.rest = []) : SplitsContent c d c := by
  refine ⟨[], (tokenAt d).1, ?_, ?_, rfl⟩
  · rw [tokensFrom_eq, if_pos hd, tokenAt_of_rest_nil hd]
    rfl
  · rw [tokenAt_of_rest_nil hd]

theorem SplitsContent.of_tokenAt_eq {c' : Cursor} (hc : c.rest ≠ []) (hd : d.rest ≠ [])
    (htoken : tokenAt c = tokenAt d)
    (h : SplitsContent (c.move (tokenAt d).2) (d.move (tokenAt d).2) c') :
    SplitsContent c d c' := by
  obtain ⟨ts, e, hts, he, hrest⟩ := h
  refine ⟨contentTokens [(tokenAt d).1] ++ ts, e, ?_, he, ?_⟩
  · rw [tokensFrom_of_rest_ne_nil hd, contentTokens_cons, hts, List.append_assoc]
  · rw [tokensFrom_of_rest_ne_nil hc, htoken, contentTokens_cons, hrest, List.append_assoc]

/-- The tokens of a text whose last line is complete stay as they are in front of another
text, but for the end. -/
theorem Cursor.Continues.splitsContent (h : d.Continues y c) (hends : EndsLine d.rest)
    (hclosed : ∀ t ∈ contentTokens (tokensFrom d), ¬ t.IsOpenComment) :
    SplitsContent c d (c.move d.rest.length) := by
  -- The blanks of `d` may go on in `y`, so they are passed one by one and not as one token.
  induction hn : d.rest.length using Nat.strong_induction_on generalizing c d with
  | _ n ih =>
    have hpass : ∀ m, 0 < m → m ≤ n →
        (∀ t ∈ contentTokens (tokensFrom (d.move m)), ¬ t.IsOpenComment) →
        SplitsContent (c.move m) (d.move m) (c.move n) := by
      intro m hpos hm hclosed
      have hlength : (d.move m).rest.length = n - m := by rw [length_rest_move, hn]
      have hrest := ih (n - m) (by omega) (h.move (by omega)) (hends.drop m) hclosed hlength
      rwa [move_move, Nat.add_sub_cancel' hm] at hrest
    cases hd : d.rest with
    | nil =>
      have hzero : n = 0 := by rw [← hn, hd, List.length_nil]
      rw [hzero, move_zero]
      exact splitsContent_of_rest_nil hd
    | cons ch cs =>
      have hdne : d.rest ≠ [] := by simp [hd]
      have hcne : c.rest ≠ [] := by simp [h.rest, hd]
      by_cases hblank : isBlank ch = true ∨ (d.position.offset == 0) = true ∧ ch = byteOrderMark
      · have hc : c.rest = ch :: (cs ++ y) := by rw [h.rest, hd, List.cons_append]
        have hpassed := contentTokens_move_one hd hblank
        have hpassed' := contentTokens_move_one hc (by rw [h.position]; exact hblank)
        have hpos : 0 < n := hn ▸ List.length_pos_iff.2 hdne
        have hrest := hpass 1 Nat.one_pos hpos (by rw [hpassed]; exact hclosed)
        rwa [SplitsContent, hpassed, hpassed'] at hrest
      · rw [tokensFrom_of_rest_ne_nil hdne] at hclosed
        have htoken : tokenAt c = tokenAt d := by
          refine h.tokenAt_of_not_blank hd hblank hends ?_
          intro hopen
          exact hclosed _ (mem_contentTokens.2 ⟨List.mem_cons_self, hopen.isTrivia⟩) hopen
        rw [contentTokens_cons] at hclosed
        refine .of_tokenAt_eq hcne hdne htoken ?_
        exact hpass _ (length_tokenAt_pos hdne) (hn ▸ length_tokenAt_le d)
          fun t ht => hclosed t (List.mem_append_right _ ht)

end

/-! ## Tokens further down -/

section

variable (lines bytes : Nat)

/-- The place below a text of so many lines and bytes. -/
def Position.down (p : Position) : Position := ⟨p.line + lines, p.column, p.offset + bytes⟩

/-- The span below a text of so many lines and bytes. -/
def Span.down (s : Span) : Span := ⟨s.start + bytes, s.stop + bytes, s.line + lines, s.column⟩

/-- The token below a text of so many lines and bytes. -/
def Token.down : Token → Token := Token.relocate (Span.down lines bytes)

/-- The diagnostic below a text of so many lines and bytes. -/
def Diagnostic.down : Diagnostic → Diagnostic := Diagnostic.relocate (Span.down lines bytes)

theorem Position.down_after (p : Position) (cs : List Char) :
    (p.down lines bytes).after cs = (p.after cs).down lines bytes := by
  induction cs generalizing p with
  | nil => rfl
  | cons c cs ih =>
    have hadvance : (p.down lines bytes).advance c = (p.advance c).down lines bytes := by
      rw [advance, advance]
      split
      · simp only [down, Nat.add_right_comm]
      · simp only [down, Nat.add_right_comm]
    rw [after_cons, hadvance, ih, after_cons]

theorem munch_of_head?_ne {cs : List Char} (h : cs.head? ≠ some byteOrderMark) (b b' : Bool) :
    munch b cs = munch b' cs := by
  cases cs with
  | nil => rfl
  | cons c cs =>
    have hc : (c == byteOrderMark) = false := by simpa using h
    simp only [munch, hc, Bool.and_false]

variable {lines bytes} {c d : Cursor}

theorem position_move_down (hposition : c.position = d.position.down lines bytes)
    (hrest : c.rest = d.rest) (n : Nat) :
    (c.move n).position = (d.move n).position.down lines bytes := by
  rw [Cursor.position_move, hposition, hrest, Position.down_after, Cursor.position_move]

theorem tokenAt_down (hposition : c.position = d.position.down lines bytes)
    (hrest : c.rest = d.rest)
    (hmunch : munch (c.position.offset == 0) d.rest = munch (d.position.offset == 0) d.rest) :
    tokenAt c = ((tokenAt d).1.down lines bytes, (tokenAt d).2) := by
  rw [hposition] at hmunch
  simp only [tokenAt, hrest, position_move_down hposition hrest, hposition, hmunch]
  rfl

/-- The lexemes do not depend on the place, but for a byte order mark at the beginning. -/
theorem tokensFrom_down (hposition : c.position = d.position.down lines bytes)
    (hrest : c.rest = d.rest)
    (hmunch : munch (c.position.offset == 0) d.rest = munch (d.position.offset == 0) d.rest) :
    tokensFrom c = (tokensFrom d).map (Token.down lines bytes) := by
  fun_induction tokensFrom d generalizing c with
  | case1 d h =>
    rw [tokensFrom_eq, if_pos (hrest.trans h), tokenAt_down hposition hrest hmunch]
    rfl
  | case2 d h ih =>
    have hc : c.rest ≠ [] := by rwa [hrest]
    have htoken := tokenAt_down hposition hrest hmunch
    have hnext := ih (c := c.move (tokenAt c).2)
      (by rw [htoken]; exact position_move_down hposition hrest _)
      (by rw [htoken]; exact congrArg (List.drop (tokenAt d).2) hrest)
      (by rw [offset_move_tokenAt hc, offset_move_tokenAt h])
    rw [tokensFrom_of_rest_ne_nil hc, hnext, htoken]
    rfl

end

/-! ## Joining texts -/

/-- A text made of `s₁` and then `s₂` has the tokens of `s₁` and, below them, those of `s₂`. -/
structure Joins (limits : Limits) (s₁ s₂ : String) : Prop where
  /-- The tokens that are neither blanks nor comments, but for the end of `s₁`. -/
  content : ∃ ts e,
    contentTokens (tokenize limits s₁).tokens = ts ++ [e] ∧ e.kind = .endOfInput ∧
    contentTokens (tokenize limits (s₁ ++ s₂)).tokens = ts ++
      (contentTokens (tokenize limits s₂).tokens).map
        (Token.down (s₁.toList.count '\n') (byteCount s₁.toList))
  /-- The lexical diagnostics. -/
  diagnostics : (tokenize limits (s₁ ++ s₂)).diagnostics = (tokenize limits s₁).diagnostics ++
    (tokenize limits s₂).diagnostics.map
      (Diagnostic.down (s₁.toList.count '\n') (byteCount s₁.toList))
  /-- The identifiers. -/
  occurrences : ∀ name, (tokenize limits (s₁ ++ s₂)).symbols.occurrences name =
    (tokenize limits s₁).symbols.occurrences name + (tokenize limits s₂).symbols.occurrences name

/-- The position after a text whose last line is complete. -/
theorem Position.start_after_line (cs : List Char) :
    start.after (cs ++ ['\n'])
      = start.down ((cs ++ ['\n']).count '\n') (byteCount (cs ++ ['\n'])) := by
  rw [start_after, lastLine_concat_newline, down]
  simp [start]

section

variable {limits : Limits} {s₁ s₂ : String} {ts : List Token} {e : Token}

theorem diagnostics_of_contentTokens (hts : contentTokens (tokens s₁) = ts ++ [e])
    (he : e.kind = .endOfInput) :
    lexicalDiagnostics limits (tokens s₁) = lexicalDiagnostics limits ts := by
  have hend : e.lexicalDiagnostic? limits = none := by
    rw [Token.lexicalDiagnostic?, he]
    rfl
  rw [← lexicalDiagnostics_contentTokens, hts, lexicalDiagnostics, List.filterMap_append,
    List.filterMap_cons_none hend, List.filterMap_nil, List.append_nil, lexicalDiagnostics]

theorem occurrences_of_contentTokens (hts : contentTokens (tokens s₁) = ts ++ [e])
    (he : e.kind = .endOfInput) (name : String) :
    (symbolsOf (tokens s₁)).occurrences name = ts.countP (·.names name) := by
  have hend : e.names name = false := by
    rw [Token.names, he]
    rfl
  rw [← symbolsOf_contentTokens, occurrences_symbolsOf, hts, List.countP_append]
  simp [hend]

theorem joins_of_contentTokens (hts : contentTokens (tokens s₁) = ts ++ [e])
    (he : e.kind = .endOfInput)
    (hjoin : contentTokens (tokens (s₁ ++ s₂)) = ts ++ (contentTokens (tokens s₂)).map
      (Token.down (s₁.toList.count '\n') (byteCount s₁.toList))) : Joins limits s₁ s₂ where
  content := by
    simp only [tokenize_eq]
    exact ⟨ts, e, hts, he, hjoin⟩
  diagnostics := by
    simp only [tokenize_eq]
    rw [diagnostics_of_contentTokens hts he, ← lexicalDiagnostics_contentTokens, hjoin,
      lexicalDiagnostics, List.filterMap_append]
    refine congrArg (lexicalDiagnostics limits ts ++ ·) ?_
    refine (lexicalDiagnostics_relocate _ limits _).trans ?_
    rw [lexicalDiagnostics_contentTokens]
    rfl
  occurrences := by
    intro name
    simp only [tokenize_eq]
    have hsecond : (symbolsOf (tokens s₂)).occurrences name
        = (contentTokens (tokens s₂)).countP (·.names name) := by
      rw [← symbolsOf_contentTokens, occurrences_symbolsOf]
    rw [occurrences_of_contentTokens hts he, hsecond, ← symbolsOf_contentTokens,
      occurrences_symbolsOf, hjoin, List.countP_append, List.countP_map]
    rfl

end

/-- A text that ends its last line and leaves no comment open is cut into tokens apart from
what follows it. -/
theorem joins_of_closed_line (limits : Limits) {s₁ s₂ : String}
    (hline : ∃ cs, s₁.toList = cs ++ ['\n'])
    (hclosed : ∀ d ∈ (tokenize limits s₁).diagnostics, d.code ≠ some .unterminatedComment)
    (hmark : s₂.toList.head? ≠ some byteOrderMark) : Joins limits s₁ s₂ := by
  have hopen : ∀ t ∈ contentTokens (tokens s₁), ¬ t.IsOpenComment := by
    intro t ht h
    obtain ⟨d, hd, hcode⟩ := h.exists_diagnostic limits
    rw [tokenize_eq] at hclosed
    exact hclosed d (List.mem_filterMap.2 ⟨t, (mem_contentTokens.1 ht).1, hd⟩) hcode
  have hcontinues : (Cursor.ofText s₁).Continues s₂.toList (.ofText (s₁ ++ s₂)) :=
    ⟨rfl, String.toList_append⟩
  obtain ⟨ts, e, hts, he, hjoin⟩ := hcontinues.splitsContent (.inr hline) hopen
  refine joins_of_contentTokens hts he (hjoin.trans ?_)
  refine congrArg (ts ++ ·) (Eq.trans ?_ (contentTokens_relocate _ _))
  refine congrArg contentTokens (tokensFrom_down ?_ ?_ (munch_of_head?_ne hmark _ _))
  · obtain ⟨cs, hcs⟩ := hline
    rw [Cursor.position_move, hcontinues.take (Nat.le_refl _), List.take_length]
    change Position.start.after s₁.toList = _
    rw [hcs]
    exact Position.start_after_line cs
  · change (s₁ ++ s₂).toList.drop s₁.toList.length = s₂.toList
    rw [String.toList_append, List.drop_left]

/-- A line with an unfinished string and blanks at its end, and one that begins with blanks. -/
theorem joins_brokenString :
    (∃ cs, "a = \"é \n".toList = cs ++ ['\n']) ∧
      (∀ d ∈ (tokenize {} "a = \"é \n").diagnostics, d.code ≠ some .unterminatedComment) ∧
      " /**/ a;".toList.head? ≠ some byteOrderMark ∧ Joins {} "a = \"é \n" " /**/ a;" := by
  have hline : ∃ cs, "a = \"é \n".toList = cs ++ ['\n'] := ⟨"a = \"é ".toList, by decide⟩
  have hclosed : ∀ d ∈ (tokenize {} "a = \"é \n").diagnostics,
      d.code ≠ some .unterminatedComment := by decide +kernel
  have hmark : " /**/ a;".toList.head? ≠ some byteOrderMark := by decide
  exact ⟨hline, hclosed, hmark, joins_of_closed_line {} hline hclosed hmark⟩

end Pdl
