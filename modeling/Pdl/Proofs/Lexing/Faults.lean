import Pdl.Proofs.Lexing.Munch

/-!
# The faults of lexemes

What is wrong with a lexeme can be told from the finished lexeme, its kind and the
limits for literals (`LexicalFault.find?`).  A lexeme has at most one fault.

* An invalid lexeme has one: it is an unfinished string or comment, or a
  character of no class.
* An integer literal has one if its value is past the greatest allowed.
* A string literal has one if it has too many characters between its quotes.
* An identifier has one if it is a reserved word but for the case of its
  letters.  This is a warning, the others are errors.

The scanners never see the finished lexeme.  They count the characters of a string as
they read them, they give up an integer that does not fit in a word, and they know from
the branch they are in which fault an invalid lexeme has.  What they find is what `munch`
reads, with the fault of that lexeme (`scan_eq`).
-/

namespace Pdl

/-! ## The fault of a finished lexeme -/

/-- The value of a row of decimal digits. -/
def decimalValue (digits : List Char) : Nat :=
  digits.foldl (fun n d => 10 * n + (d.toNat - '0'.toNat)) 0

namespace LexicalFault

/-- The fault of an invalid lexeme. -/
def ofInvalid : List Char → Option LexicalFault
  | '"' :: _ => some unterminatedString
  | '/' :: '*' :: _ => some unterminatedComment
  | c :: _ => some (invalidCharacter c)
  | [] => none

/-- The fault of a lexeme of the given kind. -/
def find? (limits : Limits) (kind : TokenKind) (lexeme : String) : Option LexicalFault :=
  match kind with
  | .invalid => ofInvalid lexeme.toList
  | .integer =>
      if limits.maxInteger < decimalValue lexeme.toList
      then some (integerTooLarge limits.maxInteger) else none
  | .string =>
      let length := lexeme.toList.length - 2
      if limits.maxStringChars < length
      then some (stringTooLong limits.maxStringChars length) else none
  | .identifier => (Keyword.miscased? lexeme).map (keywordCase · lexeme)
  | _ => none

end LexicalFault

/-- A lexeme as it is read at the front of `cs`, with its fault. -/
def Scanned.ofLexeme (limits : Limits) (cs : List Char) (lexeme : TokenKind × Nat) : Scanned where
  kind := lexeme.1
  length := lexeme.2
  fault := LexicalFault.find? limits lexeme.1 (String.ofList (cs.take lexeme.2))

variable {limits : Limits}

/-! ## Integers -/

theorem le_foldl_decimalValue (n : Nat) (ds : List Char) :
    n ≤ ds.foldl (fun n d => 10 * n + (d.toNat - '0'.toNat)) n := by
  induction ds generalizing n with
  | nil => exact Nat.le_refl n
  | cons d ds ih =>
    have hle := ih (10 * n + (d.toNat - '0'.toNat))
    rw [List.foldl_cons]
    omega

/-- A value that is too large on the way is too large in the end. -/
theorem wordValue?_eq {size : Nat} (hsize : 0 < size) (ds : List Char) :
    wordValue? size ds = if decimalValue ds < size then some (decimalValue ds) else none := by
  rw [wordValue?, decimalValue]
  generalize 0 = n at hsize
  induction ds generalizing n with
  | nil => simp [hsize]
  | cons d ds ih =>
    rw [List.foldlM_cons, List.foldl_cons]
    by_cases hd : 10 * n + (d.toNat - '0'.toNat) < size
    · rw [if_pos hd, ← ih _ hd]
      rfl
    · have hle := le_foldl_decimalValue (10 * n + (d.toNat - '0'.toNat)) ds
      rw [if_neg hd, if_neg (by omega)]
      rfl

/-- The word has room for every value that is allowed. -/
theorem scannedInteger_eq (limits : Limits) (ds : List Char) :
    scannedInteger limits ds
      = ⟨.integer, ds.length, LexicalFault.find? limits .integer (String.ofList ds)⟩ := by
  have hsize : limits.maxInteger < limits.wordSize :=
    Nat.lt_of_lt_of_le (Nat.lt_succ_self _) (Nat.le_max_right _ _)
  rw [scannedInteger, wordValue?_eq (Nat.zero_lt_of_lt hsize), LexicalFault.find?,
    String.toList_ofList]
  by_cases hlarge : limits.maxInteger < decimalValue ds
  · have hany : (if decimalValue ds < limits.wordSize then some (decimalValue ds) else none).any
        (· ≤ limits.maxInteger) = false := by
      split <;> simp [hlarge]
    rw [hany, if_pos hlarge, if_neg Bool.false_ne_true]
  · have hle := Nat.le_of_not_lt hlarge
    rw [if_neg hlarge, if_pos (Nat.lt_of_le_of_lt hle hsize), Option.any_some,
      if_pos (decide_eq_true hle)]

theorem runLength_cons_of_pos {p : Char → Bool} {c : Char} (h : p c = true) (cs : List Char) :
    runLength p (c :: cs) = runLength p cs + 1 := by
  simp [runLength, h]

theorem scanNumber_eq (limits : Limits) (cs : List Char) :
    scanNumber limits cs = .ofLexeme limits cs (munchNumber cs) := by
  have hinteger : scannedInteger limits (cs.take (runLength Char.isDigit cs))
      = .ofLexeme limits cs (.integer, runLength Char.isDigit cs) := by
    rw [scannedInteger_eq, List.length_take, Nat.min_eq_left (runLength_le _ _)]
    rfl
  simp only [scanNumber, munchNumber]
  cases hrest : cs.drop (runLength Char.isDigit cs) with
  | nil => exact hinteger
  | cons c rest =>
    by_cases hdot : c = '.'
    · subst hdot
      cases rest with
      | nil => exact hinteger
      | cons d fraction =>
        by_cases hd : d.isDigit = true
        · simp only [if_pos hd, runLength_cons_of_pos hd]
          rfl
        · have hzero : runLength Char.isDigit (d :: fraction) = 0 := by simp [runLength, hd]
          simpa only [if_neg hd, hzero] using hinteger
    · simpa [hdot] using hinteger

/-! ## Strings and comments -/

/-- The count of the scanner is the number of characters up to the closing quote. -/
theorem scanString_eq (n : Nat) (cs : List Char) :
    scanString limits n cs =
      if cs[runLength isStringChar cs]? = some '"' then
        ⟨.string, n + runLength isStringChar cs + 2,
          if limits.maxStringChars < n + runLength isStringChar cs
          then some (.stringTooLong limits.maxStringChars (n + runLength isStringChar cs))
          else none⟩
      else ⟨.invalid, n + runLength isStringChar cs + 1, some .unterminatedString⟩ := by
  fun_induction scanString limits n cs with
  | case1 n cs => rfl
  | case2 n cs => rfl
  | case3 n c cs hquote hnewline ih =>
    have hc : isStringChar c = true := by simp_all [isStringChar]
    have hcount : n + 1 + runLength isStringChar cs = n + (runLength isStringChar cs + 1) := by
      omega
    rw [ih, runLength_cons_of_pos hc, List.getElem?_cons_succ, hcount]
  | case4 n => rfl

theorem scanQuote_eq (cs : List Char) :
    scanString limits 0 cs = .ofLexeme limits ('"' :: cs) (munchQuote cs) := by
  simp only [scanString_eq, munchQuote, Nat.zero_add]
  split
  · rename_i hquote
    have hlength : runLength isStringChar cs < cs.length := (List.getElem?_eq_some_iff.1 hquote).1
    have htake : (('"' :: cs).take (runLength isStringChar cs + 2)).length - 2
        = runLength isStringChar cs := by
      rw [List.length_take, List.length_cons]
      omega
    simp only [Scanned.ofLexeme, LexicalFault.find?, String.toList_ofList, htake]
  · simp [Scanned.ofLexeme, LexicalFault.find?, LexicalFault.ofInvalid]

theorem scanBlockComment_eq (n : Nat) (cs : List Char) :
    scanBlockComment n cs =
      match commentEnd? cs with
      | some m => ⟨.comment, n + m, none⟩
      | none => ⟨.invalid, n + cs.length, some .unterminatedComment⟩ := by
  fun_induction scanBlockComment n cs with
  | case1 n cs => rfl
  | case2 n c cs hend ih =>
    rw [ih, commentEnd?]
    · cases commentEnd? cs <;> simp [Nat.add_assoc, Nat.add_comm 1]
    · exact hend
  | case3 n => rfl

theorem scanSlash_eq (cs : List Char) :
    scanSlash cs = .ofLexeme limits ('/' :: cs) (munchSlash cs) := by
  fun_cases scanSlash cs with
  | case1 cs => rfl
  | case2 cs =>
    rw [scanBlockComment_eq, munchSlash]
    cases commentEnd? cs with
    | some m => rfl
    | none => simp [Scanned.ofLexeme, LexicalFault.find?, Nat.add_comm 2, LexicalFault.ofInvalid]
  | case3 cs hline hblock =>
    rw [munchSlash]
    · cases cs with
      | nil => rfl
      | cons c cs =>
        simp [Scanned.ofLexeme, LexicalFault.find?, LexicalFault.ofInvalid]
    · exact hline
    · exact hblock

/-! ## Words and marks -/

theorem scanWord_eq (cs : List Char) :
    scanWord cs = .ofLexeme limits cs (munchWord cs) := by
  simp only [scanWord, munchWord, Scanned.ofLexeme]
  generalize String.ofList (cs.take (runLength isWordRest cs)) = word
  rw [TokenKind.ofWord]
  cases Keyword.ofSpelling? word <;> rfl

/-- A sign with an operator of its own, and a longer one if an equals sign follows. -/
theorem scanSign_eq {c : Char} {short long : Operator}
    (hshort : ∀ cs, (∀ rest, cs = '=' :: rest → False) →
      munchMark (c :: cs) = (.operator short, 1))
    (hlong : ∀ rest, munchMark (c :: '=' :: rest) = (.operator long, 2)) (cs : List Char) :
    scanSign short long cs = .ofLexeme limits (c :: cs) (munchMark (c :: cs)) := by
  fun_cases scanSign short long cs with
  | case1 rest =>
    rw [hlong]
    rfl
  | case2 cs h =>
    rw [hshort cs h]
    rfl

theorem scanMark_eq {c : Char} (hsign : c ∉ ['"', '/', '+', '=', '!']) (cs : List Char) :
    scanMark c = .ofLexeme limits (c :: cs) (munchMark (c :: cs)) := by
  simp only [List.mem_cons, List.not_mem_nil, or_false, not_or] at hsign
  have hinvalid : LexicalFault.ofInvalid [c] = some (.invalidCharacter c) :=
    LexicalFault.ofInvalid.eq_3 c [] hsign.1 fun cs h => absurd h hsign.2.1
  rw [scanMark, munchMark]
  · cases Punctuation.ofChar? c with
    | some p => rfl
    | none => simp [Scanned.ofLexeme, LexicalFault.find?, hinvalid]
  all_goals simp [hsign]

/-! ## Lexemes -/

/-- What is found is what is read, with the fault of the finished lexeme. -/
theorem scan_eq (limits : Limits) (atStart : Bool) (cs : List Char) :
    scan limits atStart cs = .ofLexeme limits cs (munch atStart cs) := by
  cases cs with
  | nil => rfl
  | cons c cs =>
    rw [scan, munch]
    split
    · rfl
    split
    · rename_i hslash
      rw [beq_iff_eq.1 hslash]
      exact scanSlash_eq cs
    split
    · rename_i hquote
      rw [beq_iff_eq.1 hquote]
      exact scanQuote_eq cs
    split
    · rename_i hplus
      rw [beq_iff_eq.1 hplus]
      exact scanSign_eq (fun cs h => by rw [munchMark]; exact h) (fun _ => rfl) cs
    split
    · rename_i hequal
      rw [beq_iff_eq.1 hequal]
      exact scanSign_eq (fun cs h => by rw [munchMark]; exact h) (fun _ => rfl) cs
    split
    · rename_i hnot
      rw [beq_iff_eq.1 hnot]
      rfl
    split
    · exact scanWord_eq (c :: cs)
    split
    · exact scanNumber_eq limits (c :: cs)
    · refine scanMark_eq ?_ cs
      simp_all

end Pdl
