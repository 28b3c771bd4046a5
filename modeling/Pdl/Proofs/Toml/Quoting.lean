import Mathlib.Data.List.TakeWhile
import Pdl.Proofs.Text.Digits
import Pdl.Toml.Writing

/-!
# Quoted text is read back

`Quoting.Writes` says which characters between the delimiters stand for a text, in
each of the four ways to quote.  Such a text is read back (`Quoting.body_of_writes`),
whoever has written it.  The one place where the reader looks ahead is a quote in a
block: it counts the quotes in a row, and where those that close the block follow
right behind, it takes all of them together.

A text is written in a way that can hold it (`Quoting.writes_choose`), so it is read
back whatever characters are in it (`anyText?_write`).
-/

namespace Pdl.Toml

/-- The characters `w` stand between the delimiters for the text `s`. -/
inductive Quoting.Writes (q : Quoting) : List Char → List Char → Prop where
  | nil : Writes q [] []
  /-- A character that stands for itself. -/
  | plain {c : Char} {w s : List Char} (htext : isTextChar c = true) (hquote : c ≠ q.quote)
      (hescape : c = '\\' → q.escapes = false) (h : Writes q w s) : Writes q (c :: w) (c :: s)
  /-- A newline in a block. -/
  | newline {w s : List Char} (hblock : q.block = true) (h : Writes q w s) :
      Writes q ('\n' :: w) ('\n' :: s)
  /-- A backslash, and what follows it. -/
  | escape {c : Char} {e w s : List Char} (hescapes : q.escapes = true)
      (he : ∀ r, escape? (e ++ r) = some (c, r)) (h : Writes q w s) :
      Writes q ('\\' :: (e ++ w)) (c :: s)
  /-- A quote in a block, where there are not three of them in a row. -/
  | quote {w s : List Char} (hblock : q.block = true)
      (hrun : quoteRun q.quote (q.quote :: w) < 3) (h : Writes q w s) :
      Writes q (q.quote :: w) (q.quote :: s)

/-! ## Reading one character -/

section

variable {q : Quoting} {c : Char} {r : List Char}

theorem Quoting.quote_ne_backslash (q : Quoting) : q.quote ≠ '\\' := by
  rw [quote]
  split <;> decide

theorem ne_newline_of_isTextChar (h : isTextChar c = true) : c ≠ '\n' ∧ c ≠ '\r' := by
  constructor <;> rintro rfl <;> exact absurd h (by decide)

theorem lineBreak?_cons (hnewline : c ≠ '\n') (hreturn : c ≠ '\r') (r : List Char) :
    lineBreak? (c :: r) = none :=
  lineBreak?.eq_3 _ (by simp [hnewline]) (by simp [hreturn])

/-- What begins as an escape does not hide the end of a line. -/
theorem hiddenLineEnd?_of_escape? {p : Char × List Char} (h : escape? r = some p) :
    hiddenLineEnd? r = none := by
  unfold escape? at h
  split at h
  all_goals first | rfl | cases h

theorem Quoting.body_escape {r' : List Char} (hescapes : q.escapes = true)
    (h : escape? r = some (c, r')) :
    q.body ('\\' :: r) = (q.body r').map fun (s, r) => (c :: s, r) := by
  have hhidden : (if q.block then hiddenLineEnd? r else none) = none := by
    rw [hiddenLineEnd?_of_escape? h, ite_self]
  rw [body, if_neg q.quote_ne_backslash.symm, if_pos ⟨rfl, hescapes⟩]
  split
  · rename_i hsome
    rw [hhidden] at hsome
    cases hsome
  split
  · rename_i hescape
    rw [h] at hescape
    cases hescape
    rfl
  · rename_i hescape
    rw [h] at hescape
    cases hescape

theorem Quoting.body_plain (htext : isTextChar c = true) (hquote : c ≠ q.quote)
    (hescape : c = '\\' → q.escapes = false) (r : List Char) :
    q.body (c :: r) = (q.body r).map fun (s, r) => (c :: s, r) := by
  have hbackslash : ¬ (c = '\\' ∧ q.escapes = true) := by
    rintro ⟨hc, he⟩
    rw [hescape hc] at he
    cases he
  have hbreak : (if q.block then lineBreak? (c :: r) else none) = none := by
    obtain ⟨hnewline, hreturn⟩ := ne_newline_of_isTextChar htext
    rw [lineBreak?_cons hnewline hreturn, ite_self]
  rw [body, if_neg hquote, if_neg hbackslash]
  split
  · rename_i hsome
    rw [hbreak] at hsome
    cases hsome
  · rw [if_pos htext]

theorem Quoting.body_newline (hblock : q.block = true) (r : List Char) :
    q.body ('\n' :: r) = (q.body r).map fun (s, r) => ('\n' :: s, r) := by
  have hquote : '\n' ≠ q.quote := by
    rw [quote]
    split <;> decide
  have hbreak : (if q.block then lineBreak? ('\n' :: r) else none) = some r := by
    rw [if_pos hblock]
    rfl
  rw [body, if_neg hquote, if_neg (by simp)]
  split
  · rename_i hsome
    rw [hbreak] at hsome
    cases hsome
    rfl
  · rename_i hnone
    rw [hbreak] at hnone
    cases hnone

/-- A quote in a block with at most one other right behind it. -/
theorem Quoting.body_quote (hblock : q.block = true) (hrun : quoteRun q.quote (q.quote :: r) < 3) :
    q.body (q.quote :: r) = (q.body r).map fun (s, r) => (q.quote :: s, r) := by
  rw [body, if_pos rfl, if_pos hblock, if_pos hrun]

/-- The quotes at the end of a block, two of which at most belong to the text. -/
theorem Quoting.body_close (hblock : q.block = true) {n : Nat}
    (hrun : quoteRun q.quote (q.quote :: r) = n + 3) (hn : n ≤ 2) :
    q.body (q.quote :: r) = some (List.replicate n q.quote, (q.quote :: r).drop (n + 3)) := by
  rw [body, if_pos rfl, if_pos hblock, hrun, if_neg (by omega), if_pos (by omega)]
  rfl

end

/-! ## Reading a text -/

section

variable {q : Quoting} {w s r : List Char}

/-- Quotes in a row stand for themselves. -/
theorem Quoting.Writes.eq_of_forall (h : q.Writes w s) (hw : ∀ c ∈ w, c = q.quote) : s = w := by
  induction h with
  | nil => rfl
  | plain htext hquote => exact absurd (hw _ (.head _)) hquote
  | newline hblock h ih => rw [ih fun c hc => hw c (.tail _ hc)]
  | escape => exact absurd (hw _ (.head _)) q.quote_ne_backslash.symm
  | quote hblock hrun h ih => rw [ih fun c hc => hw c (.tail _ hc)]

theorem quoteRun_append_of_forall {c : Char} (hw : ∀ d ∈ w, d = c) (hr : r.head? ≠ some c) :
    quoteRun c (w ++ (List.replicate 3 c ++ r)) = w.length + 3 := by
  have hrest : r.takeWhile (· == c) = [] := by
    cases r with
    | nil => rfl
    | cons d r =>
      have hd : d ≠ c := by simpa using hr
      simp [hd]
  rw [quoteRun, ← List.append_assoc, List.takeWhile_append_of_pos]
  · simp [hrest]
  · intro d hd
    rcases List.mem_append.1 hd with hd | hd
    · simpa using hw d hd
    · simpa using List.eq_of_mem_replicate hd

theorem quoteRun_append_of_not_forall {c : Char} (hw : ¬ ∀ d ∈ w, d = c) (r : List Char) :
    quoteRun c (w ++ r) = quoteRun c w := by
  have hlength : (w.takeWhile (· == c)).length ≠ w.length := by
    intro hlength
    refine hw fun d hd => ?_
    have hall := (List.takeWhile_prefix (· == c)).eq_of_length hlength
    simpa using List.takeWhile_eq_self_iff.1 hall d hd
  rw [quoteRun, List.takeWhile_append, if_neg hlength, quoteRun]

/-- A text is read back from the characters that stand for it. -/
theorem Quoting.body_of_writes (h : q.Writes w s) (hr : r.head? ≠ some q.quote) :
    q.body (w ++ (q.delimiter ++ r)) = some (s, r) := by
  induction h with
  | nil =>
    cases hblock : q.block with
    | false =>
      rw [List.nil_append, delimiter, hblock]
      simp [body, hblock]
    | true =>
      have hrun := quoteRun_append_of_forall (w := []) (by simp) hr
      rw [List.nil_append, delimiter, if_pos hblock]
      exact body_close hblock hrun (Nat.zero_le 2)
  | plain htext hquote hescape h ih =>
    rw [List.cons_append, body_plain htext hquote hescape, ih]
    rfl
  | newline hblock h ih =>
    rw [List.cons_append, body_newline hblock, ih]
    rfl
  | escape hescapes he h ih =>
    rw [List.cons_append, List.append_assoc, body_escape hescapes (he _), ih]
    rfl
  | @quote w s hblock hrun h ih =>
    by_cases hw : ∀ c ∈ w, c = q.quote
    · -- The quotes that close the block are counted with those in front of them.
      obtain rfl := h.eq_of_forall hw
      have hall : ∀ c ∈ q.quote :: s, c = q.quote := List.forall_mem_cons.2 ⟨rfl, hw⟩
      have hrun' := quoteRun_append_of_forall hall hr
      rw [List.cons_append] at hrun'
      have hlength : quoteRun q.quote (q.quote :: s) = (q.quote :: s).length := by
        rw [quoteRun, List.takeWhile_eq_self_iff.2 fun c hc => beq_iff_eq.2 (hall c hc)]
      have hreplicate : List.replicate (q.quote :: s).length q.quote = q.quote :: s :=
        (List.eq_replicate_of_mem hall).symm
      rw [delimiter, if_pos hblock, List.cons_append, body_close hblock hrun' (by omega),
        hreplicate, ← List.cons_append, ← List.append_assoc, List.drop_left' (by simp)]
    · have hnot : ¬ ∀ c ∈ q.quote :: w, c = q.quote :=
        fun hall => hw fun c hc => hall c (.tail _ hc)
      have hrun' := quoteRun_append_of_not_forall hnot (q.delimiter ++ r)
      rw [List.cons_append] at hrun' ⊢
      rw [body_quote hblock (hrun' ▸ hrun), ih]
      rfl

/-- Without a newline in the text there is none at its front. -/
theorem Quoting.lineBreak?_of_writes (h : q.Writes w s) (hs : '\n' ∉ s) (r : List Char) :
    lineBreak? (w ++ (q.delimiter ++ r)) = none := by
  have hquote : q.quote ≠ '\n' ∧ q.quote ≠ '\r' := by
    rw [quote]
    split <;> decide
  cases h with
  | nil =>
    rw [delimiter]
    split <;> exact lineBreak?_cons hquote.1 hquote.2 _
  | plain htext =>
    obtain ⟨hnewline, hreturn⟩ := ne_newline_of_isTextChar htext
    exact lineBreak?_cons hnewline hreturn _
  | newline => exact absurd (.head _) hs
  | escape => exact lineBreak?_cons (by decide) (by decide) _
  | quote => exact lineBreak?_cons hquote.1 hquote.2 _

/-! ## Writing a text -/

theorem isTextChar_of_not_needsEscape {c : Char} (h : needsEscape c = false) (hc : c ≠ '\n') :
    isTextChar c = true := by
  simp only [needsEscape, isTextChar] at h ⊢
  grind

/-- Only a quote is written with a quote in front. -/
theorem quoteRun_writtenChar {c : Char} (hc : c ≠ '"') (block : Bool) (w : List Char) :
    quoteRun '"' (writtenChar block c ++ w) = 0 := by
  fun_cases writtenChar block c with
  | case9 => simp [quoteRun, hc]
  | _ => simp [quoteRun, hexEscape]

/-- Of the quotes in a row at most two are written as they are. -/
theorem quoteRun_writtenChars {run : Nat} (hrun : run ≤ 2) (s : List Char) :
    quoteRun '"' (writtenChars true run s) + run ≤ 2 := by
  fun_induction writtenChars true run s with
  | case1 => simpa [quoteRun] using hrun
  | case2 run cs h ih =>
    have hmore := ih (by omega)
    simp only [quoteRun, List.takeWhile_cons, beq_self_eq_true, if_true, List.length_cons]
      at hmore ⊢
    omega
  | case3 run cs h ih => simpa [quoteRun] using hrun
  | case4 run c cs h ih =>
    rw [quoteRun_writtenChar h]
    omega

theorem hexValue?_upperHexDigit : ∀ n < 16, hexValue? (upperHexDigit n) = some n := by decide

/-- A character is read back from its code point. -/
theorem escape?_hexEscape {c : Char} (hc : c.toNat < 65536) (r : List Char) :
    escape? ((hexEscape c).tail ++ r) = some (c, r) := by
  have hnumber := hexNumber?_four (hexValue?_upperHexDigit (c.toNat / 4096) (by omega))
    (hexValue?_upperHexDigit (c.toNat / 256 % 16) (by omega))
    (hexValue?_upperHexDigit (c.toNat / 16 % 16) (by omega))
    (hexValue?_upperHexDigit (c.toNat % 16) (by omega)) r
  have hvalue : 16 * (16 * (16 * (c.toNat / 4096) + c.toNat / 256 % 16) + c.toNat / 16 % 16)
      + c.toNat % 16 = c.toNat := by omega
  have hvalid : c.toNat.isValidChar := c.valid
  rw [hvalue] at hnumber
  change codePoint? 4 _ = _
  rw [codePoint?]
  refine (congrArg (Option.bind · _) hnumber).trans ?_
  rw [Option.bind_some]
  exact (if_pos hvalid).trans (by rw [Char.ofNat_toNat])

/-- A character is written as itself or by an escape. -/
theorem Quoting.Writes.writtenChar {block : Bool} {c : Char} (hc : c ≠ '"') {w s : List Char}
    (h : Writes ⟨true, block⟩ w s) : Writes ⟨true, block⟩ (writtenChar block c ++ w) (c :: s) := by
  fun_cases Toml.writtenChar block c with
  | case3 =>
    subst_vars
    exact .newline rfl h
  | case8 =>
    refine .escape (e := (hexEscape c).tail) rfl (escape?_hexEscape ?_) h
    have hneeds : needsEscape c = true := by assumption
    simp only [needsEscape] at hneeds
    grind
  | case9 =>
    refine .plain (isTextChar_of_not_needsEscape ?_ ?_) hc ?_ h
    · simpa using ‹¬ needsEscape c = true›
    · assumption
    · intro hbackslash
      contradiction
  | _ =>
    subst_vars
    exact .escape (e := [_]) rfl (fun r => rfl) h

/-- A text between double quotes. -/
theorem Quoting.writes_writtenChars {block : Bool} {run : Nat} (hrun : run ≤ 2) (s : List Char) :
    Writes ⟨true, block⟩ (writtenChars block run s) s := by
  fun_induction writtenChars block run s with
  | case1 => exact .nil
  | case2 run cs h ih =>
    obtain ⟨hblock, hrun⟩ := h
    subst hblock
    have hmore : quoteRun _ (writtenChars true (run + 1) cs) + (run + 1) ≤ 2 :=
      quoteRun_writtenChars (by omega) cs
    refine .quote rfl ?_ (ih (by omega))
    simp only [quote, if_true, quoteRun, List.takeWhile_cons, beq_self_eq_true, List.length_cons]
      at hmore ⊢
    omega
  | case3 run cs h ih => exact .escape (e := ['"']) rfl (fun r => rfl) (ih (Nat.zero_le 2))
  | case4 run c cs h ih => exact (ih (Nat.zero_le 2)).writtenChar h

theorem hasTriple_tail {q c : Char} {s : List Char} (h : hasTriple q (c :: s) = false) :
    hasTriple q s = false := by
  match s with
  | [] | [_] => rfl
  | a :: b :: r =>
    rw [hasTriple, Bool.or_eq_false_iff] at h
    exact h.2

theorem quoteRun_lt_of_hasTriple {q : Char} {s : List Char} (h : hasTriple q s = false) :
    quoteRun q s < 3 := by
  match s with
  | [] | [_] | [_, _] =>
    refine Nat.lt_of_le_of_lt (List.takeWhile_sublist _).length_le ?_
    simp
  | a :: b :: c :: r =>
    rw [hasTriple, Bool.or_eq_false_iff] at h
    simp only [quoteRun, List.takeWhile_cons]
    grind

/-- A text between single quotes, as it is. -/
theorem Quoting.writes_self {block : Bool} {s : List Char} (hs : ∀ c ∈ s, needsEscape c = false)
    (hblock : block = true ∧ hasTriple '\'' s = false ∨ '\'' ∉ s ∧ '\n' ∉ s) :
    Writes ⟨false, block⟩ s s := by
  induction s with
  | nil => exact .nil
  | cons c s ih =>
    have hrest := ih (fun d hd => hs d (.tail _ hd)) (hblock.imp
      (fun h => ⟨h.1, hasTriple_tail h.2⟩)
      (fun h => ⟨fun hmem => h.1 (.tail _ hmem), fun hmem => h.2 (.tail _ hmem)⟩))
    by_cases hquote : c = '\''
    · subst hquote
      rcases hblock with ⟨rfl, htriple⟩ | h
      · exact .quote rfl (quoteRun_lt_of_hasTriple htriple) hrest
      · exact absurd (.head _) h.1
    by_cases hnewline : c = '\n'
    · subst hnewline
      rcases hblock with ⟨rfl, htriple⟩ | h
      · exact .newline rfl hrest
      · exact absurd (.head _) h.2
    · exact .plain (isTextChar_of_not_needsEscape (hs c (.head _)) hnewline) hquote
        (fun _ => rfl) hrest

/-- What stands between the delimiters of a text in the way chosen for it. -/
theorem Quoting.writes_choose (s : List Char) :
    (choose s).Writes (if (choose s).escapes then writtenChars (choose s).block 0 s else s) s := by
  fun_cases choose s with
  | case1 => exact writes_writtenChars (Nat.zero_le 2) s
  | case2 plain newline _ h =>
    simp only [plain, newline, Bool.and_eq_true, Bool.not_eq_true', List.any_eq_false,
      List.contains_eq_mem, decide_eq_false_iff_not] at h
    exact writes_self (fun c hc => by simpa using h.1.1 c hc) (.inr ⟨h.1.2, h.2⟩)
  | case3 => exact writes_writtenChars (Nat.zero_le 2) s
  | case4 plain _ _ _ _ h =>
    simp only [plain, Bool.and_eq_true, Bool.not_eq_true', List.any_eq_false] at h
    exact writes_self (fun c hc => by simpa using h.1 c hc) (.inl ⟨rfl, h.2⟩)
  | case5 => exact writes_writtenChars (Nat.zero_le 2) s

end

section

variable {q : Quoting} {w s r : List Char}

/-- A written text is read back in its own kind of quoting. -/
theorem Quoting.text?_write (h : q.Writes (if q.escapes then writtenChars q.block 0 s else s) s)
    (hr : r.head? ≠ some q.quote) : q.text? (q.write s ++ r) = some (s, r) := by
  generalize hw : (if q.escapes then writtenChars q.block 0 s else s) = w at h
  have hwrite : q.write s ++ r = q.delimiter ++ ((if q.block && s.contains '\n' then ['\n'] else [])
      ++ (w ++ (q.delimiter ++ r))) := by
    rw [write, hw]
    simp
  have hbody := body_of_writes h hr
  rw [text?, hwrite, if_pos (List.isPrefixOf_iff_prefix.2 (List.prefix_append ..)), List.drop_left]
  cases hblock : q.block with
  | false => exact hbody
  | true =>
    by_cases hnewline : '\n' ∈ s
    · simpa [hnewline, lineBreak?] using hbody
    · have hbreak := lineBreak?_of_writes h hnewline r
      simpa [hnewline, hbreak] using hbody

/-- The kind of quoting shows at the front of a block. -/
theorem anyText?_block (escapes : Bool) (r : List Char) :
    anyText? ((⟨escapes, true⟩ : Quoting).delimiter ++ r)
      = (⟨escapes, true⟩ : Quoting).text? ((⟨escapes, true⟩ : Quoting).delimiter ++ r) := by
  cases escapes <;> rfl

/-- No two quotes follow the quote that opens a text on one line. -/
theorem Quoting.Writes.ne_quotes (h : q.Writes w s) (hblock : q.block = false)
    (hr : r.head? ≠ some q.quote) (y : List Char) :
    w ++ q.quote :: r ≠ q.quote :: q.quote :: y := by
  intro heq
  cases h with
  | nil =>
    rw [List.nil_append, List.cons_inj_right] at heq
    exact hr (by rw [heq]; rfl)
  | plain _ hquote => exact hquote (List.cons_eq_cons.1 heq).1
  | escape => exact q.quote_ne_backslash.symm (List.cons_eq_cons.1 heq).1
  | newline htrue | quote htrue =>
    rw [hblock] at htrue
    cases htrue

/-- The kind of quoting shows at the front of a text on one line. -/
theorem anyText?_line {escapes : Bool} (hr : ∀ y, r ≠ (⟨escapes, false⟩ : Quoting).quote ::
      (⟨escapes, false⟩ : Quoting).quote :: y) :
    anyText? ((⟨escapes, false⟩ : Quoting).delimiter ++ r)
      = (⟨escapes, false⟩ : Quoting).text? ((⟨escapes, false⟩ : Quoting).delimiter ++ r) := by
  cases escapes with
  | true =>
    change anyText? ('"' :: r) = Quoting.text? _ ('"' :: r)
    rw [anyText?.eq_3]
    · rfl
    · intro y hy
      exact hr y (List.cons_eq_cons.1 hy).2
    · intro y hy
      cases (List.cons_eq_cons.1 hy).1
  | false =>
    change anyText? ('\'' :: r) = Quoting.text? _ ('\'' :: r)
    rw [anyText?.eq_3]
    · rfl
    · intro y hy
      cases (List.cons_eq_cons.1 hy).1
    · intro y hy
      exact hr y (List.cons_eq_cons.1 hy).2

/-- A text written in the way that is chosen for it is read back. -/
theorem anyText?_write (hr : r.head? ≠ some (Quoting.choose s).quote) :
    anyText? ((Quoting.choose s).write s ++ r) = some (s, r) := by
  have h := Quoting.writes_choose s
  have htext := Quoting.text?_write h hr
  generalize Quoting.choose s = q at h hr htext
  rw [← htext, Quoting.write, List.append_assoc, List.append_assoc, List.append_assoc]
  obtain ⟨escapes, block⟩ := q
  cases block with
  | true => exact anyText?_block _ _
  | false => exact anyText?_line (h.ne_quotes rfl hr)

end

end Pdl.Toml
