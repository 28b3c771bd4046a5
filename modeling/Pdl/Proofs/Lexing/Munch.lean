import Pdl.Lexing.Scan

/-!
# The next lexeme

`munch` finds the lexeme at the front of a text: its kind and its number of
characters.  It takes the longest piece that belongs to one of these classes.

* a word: letters, digits and underscores, not a digit first
* an integer: digits; a float: digits, a dot, digits
* a string: no quote and no newline between two quotes
* an operator or a punctuation mark
* blanks; at the beginning of the text a byte order mark may come first
* a line comment, up to its newline; a block comment, through its first end

Where nothing belongs to any class the lexeme is invalid.  It is a string up
to the end of the line if it begins with a quote, a comment up to the end of
the text if it begins like a block comment, and one character otherwise.

`munch_pos` says that a lexeme of a text that is not empty has a character,
and `munch_le` that it is part of the text.
-/

namespace Pdl

/-- What may stand between the quotes of a string. -/
def isStringChar (c : Char) : Bool := c != '"' && c != '\n'

/-- How many characters there are through the first end of a block comment. -/
def commentEnd? : List Char → Option Nat
  | '*' :: '/' :: _ => some 2
  | _ :: cs => (commentEnd? cs).map (· + 1)
  | [] => none

/-- The lexeme after a slash. -/
def munchSlash : List Char → TokenKind × Nat
  | '/' :: cs => (.comment, 2 + runLength (· != '\n') cs)
  | '*' :: cs =>
      match commentEnd? cs with
      | some n => (.comment, 2 + n)
      | none => (.invalid, 2 + cs.length)
  | _ => (.invalid, 1)

/-- The lexeme after a quote. -/
def munchQuote (cs : List Char) : TokenKind × Nat :=
  let n := runLength isStringChar cs
  if cs[n]? = some '"' then (.string, n + 2) else (.invalid, n + 1)

/-- The lexeme at a digit. -/
def munchNumber (cs : List Char) : TokenKind × Nat :=
  let n := runLength Char.isDigit cs
  match cs.drop n with
  | '.' :: fraction =>
      match runLength Char.isDigit fraction with
      | 0 => (.integer, n)
      | m + 1 => (.float, n + 1 + (m + 1))
  | _ => (.integer, n)

/-- The lexeme at the first character of a word. -/
def munchWord (cs : List Char) : TokenKind × Nat :=
  let n := runLength isWordRest cs
  (.ofWord (String.ofList (cs.take n)), n)

/-- The lexeme at an operator, a punctuation mark or a character of no class. -/
def munchMark : List Char → TokenKind × Nat
  | '+' :: '=' :: _ => (.operator .plusAssign, 2)
  | '+' :: _ => (.operator .plus, 1)
  | '=' :: '=' :: _ => (.operator .equal, 2)
  | '=' :: _ => (.operator .assign, 1)
  | '!' :: _ => (.operator .not, 1)
  | c :: _ =>
      match Punctuation.ofChar? c with
      | some p => (.punctuation p, 1)
      | none => (.invalid, 1)
  | [] => (.endOfInput, 0)

/-- The kind and the length of the lexeme at the front of a text.  `atStart` tells
whether the text is the whole source text. -/
def munch (atStart : Bool) : List Char → TokenKind × Nat
  | [] => (.endOfInput, 0)
  | c :: cs =>
      if isBlank c || (atStart && c == byteOrderMark) then (.whitespace, 1 + runLength isBlank cs)
      else if c == '/' then munchSlash cs
      else if c == '"' then munchQuote cs
      else if isWordStart c then munchWord (c :: cs)
      else if c.isDigit then munchNumber (c :: cs)
      else munchMark (c :: cs)

/-! ## The length of a lexeme -/

theorem commentEnd?_le {cs : List Char} {n : Nat} (h : commentEnd? cs = some n) :
    n ≤ cs.length := by
  fun_induction commentEnd? cs generalizing n with
  | case1 r => simp at h; subst h; simp
  | case2 c cs _ ih =>
    obtain ⟨m, hm, rfl⟩ := Option.map_eq_some_iff.1 h
    have := ih hm
    simp only [List.length_cons]; omega
  | case3 => simp at h

theorem munchSlash_pos (cs : List Char) : 0 < (munchSlash cs).2 := by
  fun_cases munchSlash cs <;> simp only <;> omega

theorem munchSlash_le (cs : List Char) : (munchSlash cs).2 ≤ cs.length + 1 := by
  fun_cases munchSlash cs with
  | case1 cs =>
    have := runLength_le (· != '\n') cs
    simp only [List.length_cons]; omega
  | case2 cs n h =>
    have := commentEnd?_le h
    simp only [List.length_cons]; omega
  | case3 cs h => simp only [List.length_cons]; omega
  | case4 => simp only; omega

theorem munchQuote_pos (cs : List Char) : 0 < (munchQuote cs).2 := by
  simp only [munchQuote]
  split <;> simp

theorem munchQuote_le (cs : List Char) : (munchQuote cs).2 ≤ cs.length + 1 := by
  have := runLength_le isStringChar cs
  simp only [munchQuote]
  split
  · rename_i h
    have := (List.getElem?_eq_some_iff.1 h).1
    simp only; omega
  · simp only; omega

theorem munchNumber_pos {c : Char} (h : c.isDigit = true) (cs : List Char) :
    0 < (munchNumber (c :: cs)).2 := by
  have := runLength_pos h cs
  fun_cases munchNumber (c :: cs) <;> simp only <;> omega

theorem munchNumber_le (cs : List Char) : (munchNumber cs).2 ≤ cs.length := by
  have hn := runLength_le Char.isDigit cs
  fun_cases munchNumber cs with
  | case1 n fraction h => exact hn
  | case2 n fraction h m hd =>
    have hf := congrArg List.length h
    have hm := runLength_le Char.isDigit fraction
    simp only [List.length_drop, List.length_cons] at hf
    simp only; omega
  | case3 n h => exact hn

theorem munchMark_pos (c : Char) (cs : List Char) : 0 < (munchMark (c :: cs)).2 := by
  generalize h : c :: cs = r
  fun_cases munchMark r <;> simp_all

theorem munchMark_le (cs : List Char) : (munchMark cs).2 ≤ cs.length := by
  fun_cases munchMark cs <;> simp

theorem munch_pos (atStart : Bool) (c : Char) (cs : List Char) :
    0 < (munch atStart (c :: cs)).2 := by
  simp only [munch]
  split
  · simp only; omega
  split
  · exact munchSlash_pos cs
  split
  · exact munchQuote_pos cs
  split
  · exact runLength_pos (by simp [isWordRest, *]) cs
  split
  · exact munchNumber_pos (by assumption) cs
  · exact munchMark_pos c cs

theorem munch_le (atStart : Bool) (cs : List Char) : (munch atStart cs).2 ≤ cs.length := by
  cases cs with
  | nil => simp [munch]
  | cons c cs =>
    simp only [munch]
    split
    · have := runLength_le isBlank cs
      simp only [List.length_cons]; omega
    split
    · exact munchSlash_le cs
    split
    · exact munchQuote_le cs
    split
    · exact runLength_le isWordRest (c :: cs)
    split
    · exact munchNumber_le (c :: cs)
    · exact munchMark_le (c :: cs)

example : munch false "3.x".toList = (.integer, 1) := by decide
example : munch false "3.25.".toList = (.float, 4) := by decide
example : munch false "/*/ x".toList = (.invalid, 5) := by decide
example : munch false "while_ ".toList = (.identifier, 6) := by decide +kernel
example : munch true "\ufeff\t x".toList = (.whitespace, 3) := by decide +kernel

end Pdl
