import Pdl.Proofs.Lexing.Munch

/-!
# Lexical classes

`InClass atStart k w` says that the characters `w` are a lexeme of kind `k`.
Its constructors are the classes of the language, each by the form of its
members.  They overlap at the front: a lexeme may begin with another one.

`munch` reads at least as much as any lexeme that a text begins with, and where
it reads no more it has the kind of that lexeme (`InClass.covers`).  So a lexeme
is of one kind only (`InClass.kind_unique`).

A word, a number or a row of blanks ends where the first other character
stands.  `runLength_append` counts the characters up to there, and the first
end of a block comment is found by `commentEnd?_append`.
-/

namespace Pdl

/-! ## Classes -/

/-- The lexemes and their kinds.  `atStart` tells whether the lexeme stands at the beginning
of the source text. -/
inductive InClass (atStart : Bool) : TokenKind → List Char → Prop where
  /-- A reserved word in its spelling. -/
  | keyword (k : Keyword) : InClass atStart (.keyword k) k.spelling.toList
  /-- Any other word: a letter or an underscore, then letters, digits and underscores. -/
  | identifier {c : Char} {cs : List Char} (hc : c.isAlpha = true ∨ c = '_')
      (hcs : ∀ d ∈ cs, d.isAlphanum = true ∨ d = '_')
      (hk : ∀ k : Keyword, k.spelling.toList ≠ c :: cs) : InClass atStart .identifier (c :: cs)
  /-- Digits. -/
  | integer {ds : List Char} (hne : ds ≠ []) (hds : ∀ d ∈ ds, d.isDigit = true) :
      InClass atStart .integer ds
  /-- Digits, a dot, digits. -/
  | float {ds es : List Char} (hne : ds ≠ []) (hds : ∀ d ∈ ds, d.isDigit = true)
      (hne' : es ≠ []) (hes : ∀ d ∈ es, d.isDigit = true) :
      InClass atStart .float (ds ++ '.' :: es)
  /-- Two quotes, and between them neither a quote nor a newline. -/
  | string {cs : List Char} (hcs : ∀ c ∈ cs, c ≠ '"' ∧ c ≠ '\n') :
      InClass atStart .string ('"' :: (cs ++ ['"']))
  | operator (o : Operator) : InClass atStart (.operator o) o.spelling.toList
  | punctuation (p : Punctuation) : InClass atStart (.punctuation p) [p.char]
  /-- Blanks. -/
  | blanks {cs : List Char} (hne : cs ≠ []) (hcs : ∀ c ∈ cs, isBlank c = true) :
      InClass atStart .whitespace cs
  /-- A byte order mark at the beginning of the text, and any blanks. -/
  | byteOrderMark {cs : List Char} (hstart : atStart = true)
      (hcs : ∀ c ∈ cs, isBlank c = true) :
      InClass atStart .whitespace (byteOrderMark :: cs)
  /-- Two slashes and the rest of the line. -/
  | lineComment {cs : List Char} (hcs : '\n' ∉ cs) :
      InClass atStart .comment ('/' :: '/' :: cs)
  /-- A slash, a star and what follows through the first star and slash. -/
  | blockComment {cs : List Char} (hcs : ¬ ['*', '/'] <:+: cs ++ ['*']) :
      InClass atStart .comment ('/' :: '*' :: (cs ++ ['*', '/']))

theorem InClass.ne_nil {atStart : Bool} {k : TokenKind} {w : List Char}
    (h : InClass atStart k w) : w ≠ [] := by
  cases h with
  | keyword k => cases k <;> decide
  | operator o => cases o <;> decide
  | integer hne | blanks hne => exact hne
  | _ => simp

theorem isWordStart_iff {c : Char} : isWordStart c = true ↔ c.isAlpha = true ∨ c = '_' := by
  simp [isWordStart]

theorem isWordRest_iff {c : Char} : isWordRest c = true ↔ c.isAlphanum = true ∨ c = '_' := by
  simp only [isWordRest, isWordStart, Char.isAlphanum, Bool.or_eq_true, beq_iff_eq]
  rw [or_right_comm]

/-- The first character of a word may stand in its rest. -/
theorem isWordRest_of_mem_word {c : Char} {cs : List Char} (hc : isWordStart c = true)
    (hcs : ∀ d ∈ cs, isWordRest d = true) : ∀ d ∈ c :: cs, isWordRest d = true := by
  intro d hd
  rcases List.mem_cons.1 hd with rfl | hd
  · rw [isWordRest, hc, Bool.true_or]
  · exact hcs d hd

theorem inClass_word {atStart : Bool} {c : Char} {cs : List Char} (hc : isWordStart c = true)
    (hcs : ∀ d ∈ cs, isWordRest d = true) :
    InClass atStart (.ofWord (String.ofList (c :: cs))) (c :: cs) := by
  rw [TokenKind.ofWord]
  split
  · rename_i k hk
    have hspelling : k.spelling.toList = c :: cs := by
      rw [Keyword.spelling_of_ofSpelling? hk, String.toList_ofList]
    rw [← hspelling]
    exact .keyword k
  · rename_i hk
    refine .identifier (isWordStart_iff.1 hc) (fun d hd => isWordRest_iff.1 (hcs d hd)) ?_
    intro k hspelling
    rw [← hspelling, String.ofList_toList, Keyword.ofSpelling?_spelling] at hk
    cases hk

theorem InClass.kind_ne_endOfInput {atStart : Bool} {k : TokenKind} {w : List Char}
    (h : InClass atStart k w) : k ≠ .endOfInput := by
  cases h <;> simp

/-! ## Rows of characters -/

theorem runLength_append {p : Char → Bool} {w : List Char} (hw : ∀ c ∈ w, p c = true)
    (r : List Char) : runLength p (w ++ r) = w.length + runLength p r := by
  rw [runLength, List.takeWhile_append_of_pos hw, List.length_append]
  rfl

theorem runLength_of_head {p : Char → Bool} {c : Char} (hc : p c = false) (r : List Char) :
    runLength p (c :: r) = 0 := by
  simp [runLength, hc]

theorem take_runLength (p : Char → Bool) (cs : List Char) :
    cs.take (runLength p cs) = cs.takeWhile p := by
  rw [runLength, ← List.prefix_iff_eq_take.1 (List.takeWhile_prefix p)]

/-! ## Ends of block comments -/

theorem commentEnd?_append {cs : List Char} (h : ¬ ['*', '/'] <:+: cs ++ ['*'])
    (r : List Char) : commentEnd? (cs ++ '*' :: '/' :: r) = some (cs.length + 2) := by
  induction cs with
  | nil => rfl
  | cons c cs ih =>
    have hcs : ¬ ['*', '/'] <:+: cs ++ ['*'] := fun hi => h (List.infix_cons hi)
    have hnot : ∀ v, c = '*' → cs ++ '*' :: '/' :: r = '/' :: v → False := by
      rintro v rfl hv
      cases cs with
      | nil => simp at hv
      | cons d cs =>
        obtain ⟨rfl, -⟩ := List.cons_eq_cons.1 hv
        exact h ⟨[], cs ++ ['*'], by simp⟩
    rw [List.cons_append, commentEnd?.eq_2 _ _ hnot, ih hcs]
    rfl

theorem exists_of_commentEnd? {cs : List Char} {n : Nat} (h : commentEnd? cs = some n) :
    ∃ ds, cs.take n = ds ++ ['*', '/'] ∧ ¬ ['*', '/'] <:+: ds ++ ['*'] := by
  fun_induction commentEnd? cs generalizing n with
  | case1 r =>
    cases h
    exact ⟨[], rfl, by decide⟩
  | case2 c cs hnot ih =>
    obtain ⟨m, hm, rfl⟩ := Option.map_eq_some_iff.1 h
    obtain ⟨ds, hds, hfirst⟩ := ih hm
    refine ⟨c :: ds, by simp [hds], ?_⟩
    rw [List.cons_append, List.infix_cons_iff]
    rintro (hp | hi)
    · -- The star and slash would stand at the front of the comment.
      rw [List.cons_prefix_cons] at hp
      obtain ⟨rfl, hslash⟩ := hp
      cases ds with
      | nil => simp at hslash
      | cons d ds =>
        obtain ⟨rfl, -⟩ := List.cons_prefix_cons.1 hslash
        cases cs with
        | nil => simp at hds
        | cons e cs =>
          cases m with
          | zero => simp at hds
          | succ m =>
            obtain ⟨rfl, -⟩ := List.cons_eq_cons.1 hds
            exact hnot cs rfl rfl
    · exact hfirst hi
  | case3 => cases h

/-! ## The first character -/

/-- What holds of each character of ASCII. -/
theorem forall_ascii {P : Char → Prop} (h : ∀ n < 128, P (Char.ofNat n)) {c : Char}
    (hc : c.toNat < 128) : P c := by
  rw [← Char.ofNat_toNat c]
  exact h c.toNat hc

theorem toNat_lt_of_isAlphanum {c : Char} (h : c.isAlphanum = true) : c.toNat < 128 := by
  delta Char.isAlphanum Char.isAlpha Char.isUpper Char.isLower Char.isDigit at h
  simp only [Bool.or_eq_true, Bool.and_eq_true, decide_eq_true_eq, ge_iff_le,
    UInt32.le_iff_toNat_le] at h
  have h₁ : c.toNat = c.val.toNat := rfl
  have h₂ : 'Z'.val.toNat = 90 ∧ 'z'.val.toNat = 122 ∧ '9'.val.toNat = 57 := by decide
  omega

/-- A character of a word is none of those that begin blanks, comments and strings. -/
theorem isBlank_of_isWordRest {c : Char} (h : isWordRest c = true) :
    isBlank c = false ∧ c ≠ byteOrderMark ∧ c ≠ '/' ∧ c ≠ '"' := by
  have hascii : c.toNat < 128 := by
    rcases isWordRest_iff.1 h with h | rfl
    · exact toNat_lt_of_isAlphanum h
    · decide
  exact forall_ascii (P := fun c => isWordRest c = true →
    isBlank c = false ∧ c ≠ byteOrderMark ∧ c ≠ '/' ∧ c ≠ '"') (by decide +kernel) hascii h

theorem isWordStart_of_isDigit {c : Char} (h : c.isDigit = true) : isWordStart c = false :=
  forall_ascii (P := fun c => c.isDigit = true → isWordStart c = false) (by decide +kernel)
    (toNat_lt_of_isAlphanum (by rw [Char.isAlphanum, h, Bool.or_true])) h

section

variable {atStart : Bool} {c : Char} {cs : List Char}

theorem munch_blank (h : isBlank c = true ∨ atStart = true ∧ c = byteOrderMark)
    (cs : List Char) : munch atStart (c :: cs) = (.whitespace, 1 + runLength isBlank cs) := by
  have hc : (isBlank c || (atStart && c == byteOrderMark)) = true := by
    rcases h with h | ⟨rfl, rfl⟩
    · rw [h, Bool.true_or]
    · decide
  rw [munch, if_pos hc]

theorem munch_slash (atStart : Bool) (cs : List Char) :
    munch atStart ('/' :: cs) = munchSlash cs := by
  have hblank : isBlank '/' = false := by decide
  have hmark : ('/' == byteOrderMark) = false := by decide
  simp [munch, hblank, hmark]

theorem munch_quote (atStart : Bool) (cs : List Char) :
    munch atStart ('"' :: cs) = munchQuote cs := by
  have hblank : isBlank '"' = false := by decide
  have hmark : ('"' == byteOrderMark) = false := by decide
  simp [munch, hblank, hmark]

theorem munch_wordStart (h : isWordStart c = true) (cs : List Char) :
    munch atStart (c :: cs) = munchWord (c :: cs) := by
  obtain ⟨hblank, hmark, hslash, hquote⟩ :=
    isBlank_of_isWordRest (c := c) (by rw [isWordRest, h, Bool.true_or])
  simp [munch, h, hblank, hmark, hslash, hquote]

theorem munch_digit (h : c.isDigit = true) (cs : List Char) :
    munch atStart (c :: cs) = munchNumber (c :: cs) := by
  obtain ⟨hblank, hmark, hslash, hquote⟩ :=
    isBlank_of_isWordRest (c := c) (by rw [isWordRest, h, Bool.or_true])
  simp [munch, h, isWordStart_of_isDigit h, hblank, hmark, hslash, hquote]

theorem munch_mark (h : (isBlank c || c == byteOrderMark || c == '/' || c == '"' ||
    isWordStart c || c.isDigit) = false) (cs : List Char) :
    munch atStart (c :: cs) = munchMark (c :: cs) := by
  simp only [Bool.or_eq_false_iff] at h
  obtain ⟨⟨⟨⟨⟨hblank, hmark⟩, hslash⟩, hquote⟩, hword⟩, hdigit⟩ := h
  rw [munch, hblank, hmark, hslash, hquote, hword, hdigit]
  simp

end

/-! ## Lexemes at the front of a text -/

/-- The lexeme `m` is at least as long as one of kind `k` with `n` characters, and of the same
kind if it is no longer. -/
structure Covers (m : TokenKind × Nat) (k : TokenKind) (n : Nat) : Prop where
  valid : m.1 ≠ .invalid
  le : n ≤ m.2
  same : m.2 = n → m.1 = k

theorem Covers.of_le {k : TokenKind} {m n : Nat} (hk : k ≠ .invalid) (h : n ≤ m) :
    Covers (k, m) k n :=
  ⟨hk, h, fun _ => rfl⟩

theorem Covers.of_lt {k k' : TokenKind} {m n : Nat} (hk : k ≠ .invalid) (h : n < m) :
    Covers (k, m) k' n :=
  ⟨hk, Nat.le_of_lt h, fun hm => absurd hm (Nat.ne_of_gt h)⟩

theorem ofWord_ne_invalid (s : String) : TokenKind.ofWord s ≠ .invalid := by
  rw [TokenKind.ofWord]
  split <;> simp

theorem ofWord_spelling (k : Keyword) : TokenKind.ofWord k.spelling = .keyword k := by
  rw [TokenKind.ofWord, Keyword.ofSpelling?_spelling]

/-- A reserved word is a word. -/
theorem exists_word_of_keyword (k : Keyword) :
    ∃ c cs, k.spelling.toList = c :: cs ∧ isWordStart c = true ∧ cs.all isWordRest = true := by
  cases k <;> exact ⟨_, _, rfl, by decide, by decide⟩

theorem ofWord_eq_identifier {w : List Char} (h : ∀ k : Keyword, k.spelling.toList ≠ w) :
    TokenKind.ofWord (String.ofList w) = .identifier := by
  rw [TokenKind.ofWord]
  split
  · rename_i k hk
    have hspelling := Keyword.spelling_of_ofSpelling? hk
    exact absurd (by rw [hspelling, String.toList_ofList]) (h k)
  · rfl

section

variable {atStart : Bool} {c : Char} {k : TokenKind}

theorem covers_word {cs : List Char} (hc : isWordStart c = true)
    (hcs : ∀ d ∈ cs, isWordRest d = true) (r : List Char) :
    Covers (munch atStart (c :: cs ++ r)) (.ofWord (String.ofList (c :: cs)))
      (c :: cs).length := by
  have hlength := runLength_append (isWordRest_of_mem_word hc hcs) r
  rw [List.cons_append, munch_wordStart hc, ← List.cons_append, munchWord]
  refine ⟨ofWord_ne_invalid _, ?_, ?_⟩
  · simp only
    omega
  · intro hn
    simp only at hn ⊢
    rw [hn, List.take_left]

theorem covers_integer {ds : List Char} (hne : ds ≠ []) (hds : ∀ d ∈ ds, d.isDigit = true)
    (r : List Char) : Covers (munch atStart (ds ++ r)) .integer ds.length := by
  obtain ⟨d, ds, rfl⟩ := List.exists_cons_of_ne_nil hne
  have hlength := runLength_append hds r
  rw [List.cons_append, munch_digit (hds d (.head _)), ← List.cons_append]
  fun_cases munchNumber (d :: ds ++ r) with
  | case1 n fraction h => exact .of_le (by simp) (by omega)
  | case2 n fraction h m hm => exact .of_lt (by simp) (by omega)
  | case3 n h => exact .of_le (by simp) (by omega)

theorem munchNumber_float {ds es : List Char} (hds : ∀ d ∈ ds, d.isDigit = true)
    (hne : es ≠ []) (hes : ∀ d ∈ es, d.isDigit = true) (r : List Char) :
    munchNumber (ds ++ '.' :: (es ++ r))
      = (.float, ds.length + 1 + runLength Char.isDigit (es ++ r)) := by
  have hfirst : runLength Char.isDigit (ds ++ '.' :: (es ++ r)) = ds.length := by
    rw [runLength_append hds, runLength_of_head (by decide), Nat.add_zero]
  have hsecond := runLength_append hes r
  have hpos : 0 < es.length := List.length_pos_iff.2 hne
  rw [munchNumber, hfirst]
  simp only [List.drop_left]
  split
  · omega
  · rename_i m hm
    rw [hm]

theorem covers_float {ds es : List Char} (hne : ds ≠ []) (hds : ∀ d ∈ ds, d.isDigit = true)
    (hne' : es ≠ []) (hes : ∀ d ∈ es, d.isDigit = true) (r : List Char) :
    Covers (munch atStart (ds ++ '.' :: es ++ r)) .float (ds ++ '.' :: es).length := by
  have hsecond := runLength_append hes r
  have hnumber := munchNumber_float hds hne' hes r
  obtain ⟨d, ds, rfl⟩ := List.exists_cons_of_ne_nil hne
  rw [List.append_assoc, List.cons_append, List.cons_append, munch_digit (hds d (.head _)),
    ← List.cons_append, hnumber]
  refine .of_le (by simp) ?_
  simp only [List.length_append, List.length_cons]
  omega

theorem munchQuote_string {cs : List Char} (hcs : ∀ c ∈ cs, c ≠ '"' ∧ c ≠ '\n')
    (r : List Char) : munchQuote (cs ++ '"' :: r) = (.string, cs.length + 2) := by
  have hstring : ∀ c ∈ cs, isStringChar c = true := by
    intro c hc
    simpa [isStringChar] using hcs c hc
  have hlength : runLength isStringChar (cs ++ '"' :: r) = cs.length := by
    rw [runLength_append hstring, runLength_of_head (by decide), Nat.add_zero]
  have hquote : (cs ++ '"' :: r)[cs.length]? = some '"' := by simp
  rw [munchQuote, hlength, if_pos hquote]

theorem covers_string {cs : List Char} (hcs : ∀ c ∈ cs, c ≠ '"' ∧ c ≠ '\n') (r : List Char) :
    Covers (munch atStart ('"' :: (cs ++ ['"']) ++ r)) .string ('"' :: (cs ++ ['"'])).length := by
  have hsplit : '"' :: (cs ++ ['"']) ++ r = '"' :: (cs ++ '"' :: r) := by simp
  rw [hsplit, munch_quote, munchQuote_string hcs]
  exact .of_le (by simp) (by simp)

/-- An operator that an equals sign would lengthen. -/
theorem covers_munchMark {c : Char} {o o' : Operator} {r : List Char}
    (hlong : ∀ t, munchMark (c :: '=' :: t) = (.operator o', 2))
    (hshort : (∀ t, r = '=' :: t → False) → munchMark (c :: r) = (.operator o, 1)) :
    Covers (munchMark (c :: r)) (.operator o) 1 := by
  by_cases hr : ∃ t, r = '=' :: t
  · obtain ⟨t, rfl⟩ := hr
    rw [hlong]
    exact .of_lt (by simp) (by decide)
  · rw [hshort fun t ht => hr ⟨t, ht⟩]
    exact .of_le (by simp) (Nat.le_refl 1)

theorem covers_operator (o : Operator) (r : List Char) :
    Covers (munch atStart (o.spelling.toList ++ r)) (.operator o) o.spelling.toList.length := by
  cases o with
  | plus =>
    change Covers (munch atStart ('+' :: r)) _ 1
    rw [munch_mark (by decide)]
    exact covers_munchMark munchMark.eq_1 (munchMark.eq_2 r)
  | plusAssign =>
    change Covers (munch atStart ('+' :: '=' :: r)) _ 2
    rw [munch_mark (by decide), munchMark]
    exact .of_le (by simp) (Nat.le_refl 2)
  | assign =>
    change Covers (munch atStart ('=' :: r)) _ 1
    rw [munch_mark (by decide)]
    exact covers_munchMark munchMark.eq_3 (munchMark.eq_4 r)
  | equal =>
    change Covers (munch atStart ('=' :: '=' :: r)) _ 2
    rw [munch_mark (by decide), munchMark]
    exact .of_le (by simp) (Nat.le_refl 2)
  | not =>
    change Covers (munch atStart ('!' :: r)) _ 1
    rw [munch_mark (by decide), munchMark]
    exact .of_le (by simp) (Nat.le_refl 1)

theorem munch_punctuation (p : Punctuation) (r : List Char) :
    munch atStart (p.char :: r) = (.punctuation p, 1) := by
  cases p <;> exact munch_mark (by decide) r

theorem covers_blanks {cs : List Char} (hc : isBlank c = true ∨ atStart = true ∧ c = byteOrderMark)
    (hcs : ∀ c ∈ cs, isBlank c = true) (r : List Char) :
    Covers (munch atStart (c :: cs ++ r)) .whitespace (c :: cs).length := by
  have hlength := runLength_append hcs r
  rw [List.cons_append, munch_blank hc, List.length_cons]
  exact .of_le (by simp) (by omega)

theorem covers_lineComment {cs : List Char} (hcs : '\n' ∉ cs) (r : List Char) :
    Covers (munch atStart ('/' :: '/' :: cs ++ r)) .comment ('/' :: '/' :: cs).length := by
  have hline : ∀ c ∈ cs, (c != '\n') = true := by
    intro c hc
    rw [bne_iff_ne]
    rintro rfl
    exact hcs hc
  have hlength := runLength_append hline r
  rw [List.cons_append, List.cons_append, munch_slash, munchSlash, List.length_cons,
    List.length_cons]
  exact .of_le (by simp) (by omega)

theorem covers_blockComment {cs : List Char} (hcs : ¬ ['*', '/'] <:+: cs ++ ['*'])
    (r : List Char) :
    Covers (munch atStart ('/' :: '*' :: (cs ++ ['*', '/']) ++ r)) .comment
      ('/' :: '*' :: (cs ++ ['*', '/'])).length := by
  have hsplit : '/' :: '*' :: (cs ++ ['*', '/']) ++ r
      = '/' :: '*' :: (cs ++ '*' :: '/' :: r) := by simp
  rw [hsplit, munch_slash, munchSlash, commentEnd?_append hcs]
  refine .of_le (by simp) ?_
  simp only [List.length_append, List.length_cons, List.length_nil]
  omega

end

/-- What `munch` reads is no shorter than any lexeme that the text begins with. -/
theorem InClass.covers {atStart : Bool} {k : TokenKind} {w : List Char}
    (h : InClass atStart k w) (r : List Char) : Covers (munch atStart (w ++ r)) k w.length := by
  cases h with
  | keyword k =>
    obtain ⟨c, cs, hk, hc, hcs⟩ := exists_word_of_keyword k
    have hkind : TokenKind.ofWord (String.ofList (c :: cs)) = .keyword k := by
      rw [← hk, String.ofList_toList, ofWord_spelling]
    rw [hk, ← hkind]
    exact covers_word hc (List.all_eq_true.1 hcs) r
  | identifier hc hcs hk =>
    rw [← ofWord_eq_identifier hk]
    exact covers_word (isWordStart_iff.2 hc) (fun d hd => isWordRest_iff.2 (hcs d hd)) r
  | integer hne hds => exact covers_integer hne hds r
  | float hne hds hne' hes => exact covers_float hne hds hne' hes r
  | string hcs => exact covers_string hcs r
  | operator o => exact covers_operator o r
  | punctuation p =>
    rw [List.cons_append, munch_punctuation]
    exact .of_le (by simp) (Nat.le_refl 1)
  | @blanks cs hne hcs =>
    obtain ⟨c, cs, rfl⟩ := List.exists_cons_of_ne_nil hne
    exact covers_blanks (.inl (hcs c (.head _))) (fun d hd => hcs d (.tail _ hd)) r
  | byteOrderMark hstart hcs => exact covers_blanks (.inr ⟨hstart, rfl⟩) hcs r
  | lineComment hcs => exact covers_lineComment hcs r
  | blockComment hcs => exact covers_blockComment hcs r

/-- A lexeme is of one kind only. -/
theorem InClass.kind_unique {atStart : Bool} {k k' : TokenKind} {w : List Char}
    (h : InClass atStart k w) (h' : InClass atStart k' w) : k = k' := by
  have hcovers := h.covers []
  have hcovers' := h'.covers []
  have hle := munch_le atStart (w ++ [])
  rw [List.length_append, List.length_nil] at hle
  have hlength : (munch atStart (w ++ [])).2 = w.length := Nat.le_antisymm hle hcovers.le
  rw [← hcovers.same hlength, hcovers'.same hlength]

end Pdl
