import Mathlib.Data.List.Basic
import Pdl.Proofs.Toml.Quoting
import Pdl.Toml.Document

/-!
# Written lines are read back

A text, a truth value and a natural number below `2 ^ 63` are values at the end of a
line when they are written (`Value.WrittenAs`).  A line that gives a written value to a
bare key is read as that pair (`line?_writeLine`), and a document is known by its lines
(`Document.read?_of_hasLines`).

What begins with a digit could be a moment as well, and which of the two it is shows
behind the digits.  A number at the end of a line has neither a hyphen nor a colon there
(`startsMoment_digits`).
-/

namespace Pdl.Toml

/-! ## Numbers -/

section

variable {ds r : List Char}

/-- What is left when a number of a fixed length has been read from digits at the end of a line. -/
theorem exists_of_fixedNumberFrom (hds : ∀ d ∈ ds, d.isDigit = true) {m n v : Nat} {r' : List Char}
    (h : fixedNumberFrom m n (ds ++ '\n' :: r) = some (v, r')) :
    ∃ es, r' = es ++ '\n' :: r ∧ ∀ d ∈ es, d.isDigit = true := by
  induction n generalizing ds m with
  | zero =>
    rw [fixedNumberFrom] at h
    cases h
    exact ⟨ds, rfl, hds⟩
  | succ n ih =>
    cases ds with
    | nil =>
      rw [List.nil_append, fixedNumberFrom, if_neg (by decide)] at h
      cases h
    | cons d ds =>
      rw [List.cons_append, fixedNumberFrom, if_pos (hds d (.head _))] at h
      exact ih (fun e he => hds e (.tail _ he)) h

/-- A mark does not follow digits at the end of a line. -/
theorem after?_fixedNumberFrom (hds : ∀ d ∈ ds, d.isDigit = true) {m n v : Nat} {r' : List Char}
    (h : fixedNumberFrom m n (ds ++ '\n' :: r) = some (v, r')) {c : Char}
    (hc : c.isDigit = false) (hnewline : c ≠ '\n') : after? c r' = none := by
  obtain ⟨es, rfl, hes⟩ := exists_of_fixedNumberFrom hds h
  cases es with
  | nil => exact if_neg hnewline.symm
  | cons e es =>
    refine if_neg ?_
    rintro rfl
    rw [hes e (.head _)] at hc
    cases hc

/-- A number at the end of a line does not begin a moment. -/
theorem startsMoment_digits (hds : ∀ d ∈ ds, d.isDigit = true) :
    startsMoment (ds ++ '\n' :: r) = false := by
  have hyear : year? (ds ++ '\n' :: r) = none := by
    refine Option.bind_eq_none_iff.2 ?_
    rintro ⟨year, r'⟩ h
    have hafter := after?_fixedNumberFrom hds h (c := '-') (by decide) (by decide)
    simp [hafter]
  have hhour : hour? (ds ++ '\n' :: r) = none := by
    refine Option.bind_eq_none_iff.2 ?_
    rintro ⟨hour, r'⟩ h
    obtain ⟨⟨hour', r''⟩, hnumber, hrange⟩ := Option.bind_eq_some_iff.1 h
    dsimp only at hrange
    split at hrange
    · cases hrange
      have hafter := after?_fixedNumberFrom hds hnumber (c := ':') (by decide) (by decide)
      simp [hafter]
    · cases hrange
  rw [startsMoment, hyear, hhour]
  rfl

theorem isDigitIn_ten {d : Char} (hd : d.isDigit = true) : isDigitIn 10 d = true := by
  have hvalue : digitValue d = d.toNat - 48 := by
    rw [digitValue, if_pos hd]
    rfl
  have hrange : d.toNat ≤ 57 := by
    simp only [Char.isDigit, Bool.and_eq_true, decide_eq_true_eq] at hd
    exact hd.2
  rw [isDigitIn, hd, hvalue, Bool.true_or, Bool.true_or, Bool.true_and, decide_eq_true_eq]
  omega

theorem moreDigits_digits (hds : ∀ d ∈ ds, d.isDigit = true) :
    moreDigits 10 (ds ++ '\n' :: r) = some (ds, '\n' :: r) := by
  induction ds with
  | nil => rfl
  | cons d ds ih =>
    have hd := hds d (.head _)
    have hunderscore : d ≠ '_' := by
      rintro rfl
      cases hd
    rw [List.cons_append, moreDigits.eq_4 _ _ _ (by simp [hunderscore]) (by simp [hunderscore]),
      if_pos (isDigitIn_ten hd), ih fun e he => hds e (.tail _ he)]
    rfl

end

theorem digitsValue_toDigits (n : Nat) : digitsValue 10 0 (Nat.toDigits 10 n) = n := by
  refine (List.foldl_ext _ _ 0 ?_).trans (ofDigitChars_toDigits n)
  intro m d hd
  rw [digitValue, if_pos (isDigit_of_mem_toDigits hd)]

theorem plainDigits_toDigits (n : Nat) (r : List Char) :
    plainDigits (Nat.toDigits 10 n ++ '\n' :: r) = some (Nat.toDigits 10 n, '\n' :: r) := by
  by_cases hn : n = 0
  · subst hn
    rfl
  · obtain ⟨d, ds, hdigits, hd⟩ := exists_toDigits_eq_cons hn
    have hds : ∀ e ∈ d :: ds, e.isDigit = true := by
      intro e he
      exact isDigit_of_mem_toDigits (hdigits ▸ he)
    rw [hdigits, List.cons_append, plainDigits.eq_2 _ (by simp [hd]), someDigits,
      if_pos (isDigitIn_ten (hds d (.head _))), moreDigits_digits fun e he => hds e (.tail _ he)]
    rfl

theorem word?_natCast {n : Nat} (hn : n < 0x8000000000000000) : word? (n : Int) = some (n : Int) :=
  if_pos ⟨by omega, by omega⟩

theorem fraction_newline (r : List Char) : fraction ('\n' :: r) = some (none, '\n' :: r) := rfl

theorem exponent_newline (r : List Char) : exponent ('\n' :: r) = some (none, '\n' :: r) := rfl

/-- Digits at the end of a line are an integer if it fits into 64 bits. -/
theorem decimal_of_plainDigits {cs ds r : List Char} {n : Int} (hsign : sign cs = (false, cs))
    (hi : ∀ y, cs ≠ 'i' :: y) (hn : ∀ y, cs ≠ 'n' :: y)
    (hplain : plainDigits cs = some (ds, '\n' :: r))
    (hword : word? (digitsValue 10 0 ds) = some n) : decimal cs = some (.inl n, '\n' :: r) := by
  rw [decimal, hsign]
  dsimp only
  split
  · exact absurd rfl (hi _)
  · exact absurd rfl (hn _)
  · rw [hplain, Option.bind_eq_bind, Option.bind_some]
    dsimp only
    rw [fraction_newline, Option.bind_eq_bind, Option.bind_some]
    dsimp only
    rw [exponent_newline, Option.bind_eq_bind, Option.bind_some]
    dsimp only
    rw [if_pos (by decide), if_neg (by decide), hword, Option.bind_eq_bind, Option.bind_some]
    rfl

/-- A natural number at the end of a line. -/
theorem number_toDigits {n : Nat} (hn : n < 0x8000000000000000) (r : List Char) :
    number (Nat.toDigits 10 n ++ '\n' :: r) = some (.inl n, '\n' :: r) := by
  have hsign : sign (Nat.toDigits 10 n ++ '\n' :: r)
      = (false, Nat.toDigits 10 n ++ '\n' :: r) :=
    sign.eq_3 _ (toDigits_append_ne rfl n _) (toDigits_append_ne rfl n _)
  -- Behind the first digit is another one or the end of the line, so no letter of a base.
  have hbase : ∀ {c}, c.isDigit = false → c ≠ '\n' →
      ∀ y, Nat.toDigits 10 n ++ '\n' :: r = '0' :: c :: y → False := by
    intro c hc hnewline y h
    obtain ⟨d, ds, hds, -, hdigits⟩ := exists_digits n
    rw [hds, List.cons_append, List.cons.injEq] at h
    cases ds with
    | nil => exact hnewline (List.cons.inj h.2).1.symm
    | cons e es =>
      have he := hdigits e (.head _)
      rw [(List.cons.inj h.2).1, hc] at he
      cases he
  have hword : word? (digitsValue 10 0 (Nat.toDigits 10 n)) = some (n : Int) := by
    rw [digitsValue_toDigits, word?_natCast hn]
  rw [number.eq_4 _ (hbase rfl (by decide)) (hbase rfl (by decide)) (hbase rfl (by decide))]
  exact decimal_of_plainDigits hsign (toDigits_append_ne rfl n _) (toDigits_append_ne rfl n _)
    (plainDigits_toDigits n r) hword

/-! ## Values -/

/-- The text `written` at the end of a line stands for a value. -/
def Value.WrittenAs (v : Value) (written : String) : Prop :=
  ∀ r, value? maxDepth (skipBlanks (written.toList ++ '\n' :: r)) = some (v, '\n' :: r)

theorem Quoting.exists_write_eq_cons (q : Quoting) (s : List Char) :
    ∃ w, q.write s = q.quote :: w := by
  obtain ⟨escapes, block⟩ := q
  cases block <;> exact ⟨_, rfl⟩

/-- A quoted text is a value. -/
theorem value?_cons_quote (q : Quoting) (n : Nat) (r : List Char) :
    value? (n + 1) (skipBlanks (q.quote :: r))
      = (anyText? (q.quote :: r)).map fun (s, r) => (.text (.ofList s), r) := by
  obtain ⟨escapes, block⟩ := q
  cases escapes <;> rfl

theorem Value.writtenAs_writeText (s : String) : (Value.text s).WrittenAs (writeText s) := by
  intro r
  have hread : anyText? ((Quoting.choose s.toList).write s.toList ++ '\n' :: r)
      = some (s.toList, '\n' :: r) := by
    refine anyText?_write ?_
    rw [Quoting.quote, List.head?_cons]
    split <;> decide
  rw [writeText, String.toList_ofList]
  obtain ⟨w, hw⟩ := (Quoting.choose s.toList).exists_write_eq_cons s.toList
  rw [hw, List.cons_append] at hread ⊢
  rw [maxDepth, value?_cons_quote, hread]
  show some (text (.ofList s.toList), _) = _
  rw [String.ofList_toList]

theorem Value.writtenAs_writeBoolean (b : Bool) :
    (Value.boolean b).WrittenAs (writeBoolean b) := by
  intro r
  cases b <;> rfl

theorem Value.writtenAs_toString {n : Nat} (hn : n < 0x8000000000000000) :
    (Value.integer n).WrittenAs (toString n) := by
  intro r
  have hstring : (toString n).toList = Nat.toDigits 10 n := Nat.toList_repr
  have hmoment : startsMoment (Nat.toDigits 10 n ++ '\n' :: r) = false :=
    startsMoment_digits fun _ => isDigit_of_mem_toDigits
  -- No digit begins any other kind of value.
  have hother : ∀ {c}, c.isDigit = false → ∀ y, Nat.toDigits 10 n ++ '\n' :: r ≠ c :: y :=
    fun hc => toDigits_append_ne hc n _
  rw [hstring, skipBlanks.eq_3 _ (hother rfl) (hother rfl), maxDepth,
    value?.eq_6 _ _ (hother rfl) (hother rfl),
    plain?.eq_5 _ (hother rfl) (hother rfl) (fun _ => hother rfl _) (fun _ => hother rfl _),
    hmoment, number_toDigits hn]
  rfl

/-! ## Lines -/

theorem ne_of_isBareChar {c d : Char} (hc : isBareChar c = true) (hd : isBareChar d = false) :
    c ≠ d := by
  rintro rfl
  rw [hc] at hd
  cases hd

/-- Whether a key may stand without quotes. -/
def isBareKey (key : String) : Bool := !key.toList.isEmpty && key.toList.all isBareChar

theorem isBareKey_iff {key : String} :
    isBareKey key = true ↔ key.toList ≠ [] ∧ ∀ c ∈ key.toList, isBareChar c = true := by
  simp [isBareKey]

section

variable {key : String} (hkey : isBareKey key = true)
include hkey

/-- What begins with a bare key begins with no other character. -/
theorem bareKey_append_ne {d : Char} (hd : isBareChar d = false) (r y : List Char) :
    key.toList ++ r ≠ d :: y := by
  obtain ⟨hne, hbare⟩ := isBareKey_iff.1 hkey
  obtain ⟨c, cs, hcs⟩ := List.exists_cons_of_ne_nil hne
  rw [hcs, List.cons_append]
  intro h
  exact ne_of_isBareChar (hbare c (hcs ▸ .head _)) hd (List.cons.inj h).1

theorem skipBlanks_bareKey (r : List Char) : skipBlanks (key.toList ++ r) = key.toList ++ r :=
  skipBlanks.eq_3 _ (bareKey_append_ne hkey rfl r) (bareKey_append_ne hkey rfl r)

/-- A bare key ends where another character follows. -/
theorem key?_bareKey {d : Char} {r : List Char} (hd : isBareChar d = false)
    (hdot : (skipBlanks (d :: r)).head? ≠ some '.') (n : Nat) :
    key? (n + 1) (key.toList ++ d :: r) = some ([key], skipBlanks (d :: r)) := by
  obtain ⟨hne, hbare⟩ := isBareKey_iff.1 hkey
  have htake : (key.toList ++ d :: r).takeWhile isBareChar = key.toList := by
    rw [List.takeWhile_append_of_pos hbare, List.takeWhile_cons_of_neg (by simp [hd]),
      List.append_nil]
  have hdrop : (key.toList ++ d :: r).dropWhile isBareChar = d :: r := by
    rw [List.dropWhile_append_of_pos hbare, List.dropWhile_cons_of_neg (by simp [hd])]
  have hpart : keyPart? (key.toList ++ d :: r) = some (key, d :: r) := by
    rw [keyPart?.eq_3 _ (bareKey_append_ne hkey rfl _) (bareKey_append_ne hkey rfl _),
      htake, hdrop, if_neg hne, String.ofList_toList]
  rw [key?, skipBlanks_bareKey hkey, hpart, Option.bind_eq_bind, Option.bind_some]
  dsimp only
  split
  · rename_i h
    rw [h] at hdot
    exact absurd rfl hdot
  · rfl

/-- A line that gives a written value to a bare key. -/
theorem line?_writeLine {v : Value} {written : String} (hv : v.WrittenAs written) (r : List Char) :
    line? ((writeLine key written).toList ++ r) = some (some (.pair [key] v), r) := by
  have hline : (writeLine key written).toList ++ r
      = key.toList ++ ' ' :: '=' :: ' ' :: (written.toList ++ '\n' :: r) := by
    simp [writeLine]
  have hfull : lineEnd? (key.toList ++ ' ' :: '=' :: ' ' :: (written.toList ++ '\n' :: r))
      = none := by
    rw [lineEnd?, skipBlanks_bareKey hkey,
      skipComment.eq_2 _ (bareKey_append_ne hkey rfl _)]
    split
    · exact absurd ‹_› (by simp)
    · exact lineBreak?.eq_3 _ (bareKey_append_ne hkey rfl _)
        (fun _ => bareKey_append_ne hkey rfl _ _)
  have hpair : pair? (value? maxDepth)
      (key.toList ++ ' ' :: '=' :: ' ' :: (written.toList ++ '\n' :: r))
        = some (([key], v), '\n' :: r) := by
    rw [pair?, maxDepth, key?_bareKey hkey rfl (by simp [skipBlanks])]
    show (value? maxDepth (skipBlanks (written.toList ++ '\n' :: r))).bind _ = _
    rw [hv r]
    rfl
  rw [hline, line?.eq_1, skipBlanks_bareKey hkey]
  split
  · exact absurd ‹_› (bareKey_append_ne hkey rfl _ _)
  · exact absurd ‹_› (bareKey_append_ne hkey rfl _ _)
  · rw [hfull, hpair]
    rfl

/-- A header with a bare key. -/
theorem line?_header (r : List Char) :
    line? ('[' :: (key.toList ++ ']' :: '\n' :: r)) = some (some (.header [key]), r) := by
  rw [line?.eq_1]
  split
  · rename_i h
    exact absurd (List.cons.inj h).2 (bareKey_append_ne hkey rfl _ _)
  · rename_i h
    rw [← (List.cons.inj h).2, maxDepth, key?_bareKey hkey rfl (by simp [skipBlanks])]
    rfl
  · rename_i h
    exact absurd rfl (h _)

end

/-- An empty line. -/
theorem line?_newline (r : List Char) : line? ('\n' :: r) = some (none, r) := rfl

/-! ## Documents -/

/-- The lines of a text, whatever bound there is on their number. -/
def HasLines (cs : List Char) (ls : List Line) : Prop :=
  ∀ n, cs.length ≤ n → linesWithin n cs = some ls

theorem HasLines.nil : HasLines [] [] := by
  intro n _
  rw [linesWithin]

theorem HasLines.cons {cs r : List Char} {x : Option Line} {ls : List Line} (h : HasLines r ls)
    (hline : line? cs = some (x, r)) (hlength : r.length < cs.length) :
    HasLines cs (x.toList ++ ls) := by
  intro n hn
  cases n with
  | zero => omega
  | succ n =>
    have hcs : cs ≠ [] := List.ne_nil_of_length_pos (Nat.zero_lt_of_lt hlength)
    rw [linesWithin.eq_3 _ _ hcs, hline]
    show (linesWithin n r).bind _ = _
    rw [h n (by omega)]
    rfl

theorem HasLines.newline {r : List Char} {ls : List Line} (h : HasLines r ls) :
    HasLines ('\n' :: r) ls :=
  h.cons (line?_newline r) (Nat.lt_succ_self _)

section

variable {r : List Char} {ls : List Line} (h : HasLines r ls) (key : String)
  (hkey : isBareKey key = true)
include h hkey

theorem HasLines.pair {v : Value} {written : String} (hv : v.WrittenAs written) :
    HasLines ((writeLine key written).toList ++ r) (.pair [key] v :: ls) :=
  h.cons (line?_writeLine hkey hv r) (by simp [writeLine]; omega)

theorem HasLines.header :
    HasLines ('[' :: (key.toList ++ ']' :: '\n' :: r)) (.header [key] :: ls) :=
  h.cons (line?_header hkey r) (by simp; omega)

end

/-- The entries of a text that is known by its lines. -/
theorem Document.read?_of_hasLines {text : String} {ls : List Line} (h : HasLines text.toList ls)
    (hmark : text.toList.head? ≠ some '\uFEFF') :
    Document.read? text
      = (Entries.insertAll (sections ls).1 []).bind ((sections ls).2.foldlM Section.addTo) := by
  rw [Document.read?]
  split
  · rename_i heq
    rw [heq] at hmark
    exact absurd rfl hmark
  · rw [h _ (Nat.le_succ _)]
    rfl

end Pdl.Toml
