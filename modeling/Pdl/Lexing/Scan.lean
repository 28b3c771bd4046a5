import Pdl.Lexing.Fault
import Pdl.Text.Blank

/-!
# Scanning

`scan` finds the lexeme at the front of a text: its kind, its number of
characters, and what is wrong with it.  The first characters tell which scanner
reads on, and the scanner goes through the lexeme once.

* `scanSlash` reads a comment.  A block comment ends at its first end
  (`scanBlockComment`).
* `scanString` reads the rest of a string literal and counts its characters.
* `scanNumber` reads an integer or a float.  A dot belongs to the number only in
  front of a digit.
* `scanWord` reads a word, and then tells identifiers from reserved words.
* `scanSign` reads a sign that an equals sign may follow, `scanMark` any other
  character.

The value of an integer literal is read into a machine word.  Where the word is
too small for it, it is past the greatest value too.

`scan_pos` says that a lexeme of a text that is not empty has a character.
-/

namespace Pdl

/-! ## Characters -/

/-- Letters of words are those of ASCII. -/
def isWordStart (c : Char) : Bool := c.isAlpha || c == '_'

/-- What may stand in a word after its first character. -/
def isWordRest (c : Char) : Bool := isWordStart c || c.isDigit

/-- The byte order mark, a blank at the beginning of a text. -/
def byteOrderMark : Char := '\ufeff'

/-- How many characters at the front satisfy `p`. -/
def runLength (p : Char → Bool) (cs : List Char) : Nat := (cs.takeWhile p).length

/-- The value of a row of decimal digits, if it is less than `size`. -/
def wordValue? (size : Nat) (digits : List Char) : Option Nat :=
  let push (n : Nat) (d : Char) : Option Nat :=
    let m := 10 * n + (d.toNat - '0'.toNat)
    if m < size then some m else none
  digits.foldlM push 0

/-- The size of the words that integers are read into: 64 bits, and more only for a limit that
does not fit in them. -/
def Limits.wordSize (limits : Limits) : Nat := max UInt64.size (limits.maxInteger + 1)

/-! ## Scanners -/

/-- What is found at the front of a text. -/
structure Scanned where
  /-- What the lexeme is. -/
  kind : TokenKind
  /-- The number of its characters. -/
  length : Nat
  /-- What is wrong with it. -/
  fault : Option LexicalFault := none
deriving Repr, DecidableEq

/-- The rest of a block comment, behind `n` characters of it. -/
def scanBlockComment (n : Nat) : List Char → Scanned
  | '*' :: '/' :: _ => { kind := .comment, length := n + 2 }
  | _ :: cs => scanBlockComment (n + 1) cs
  | [] => ⟨.invalid, n, some .unterminatedComment⟩

/-- What begins with a slash, behind it. -/
def scanSlash : List Char → Scanned
  | '/' :: cs => { kind := .comment, length := 2 + runLength (· != '\n') cs }
  | '*' :: cs => scanBlockComment 2 cs
  | _ => ⟨.invalid, 1, some (.invalidCharacter '/')⟩

/-- The rest of a string literal, behind its opening quote and `length` characters. -/
def scanString (limits : Limits) (length : Nat) : List Char → Scanned
  | '"' :: _ =>
      { kind := .string
        length := length + 2
        fault :=
          if limits.maxStringChars < length
          then some (.stringTooLong limits.maxStringChars length) else none }
  | '\n' :: _ => ⟨.invalid, length + 1, some .unterminatedString⟩
  | _ :: cs => scanString limits (length + 1) cs
  | [] => ⟨.invalid, length + 1, some .unterminatedString⟩

/-- An integer with the given digits. -/
def scannedInteger (limits : Limits) (digits : List Char) : Scanned where
  kind := .integer
  length := digits.length
  fault :=
    if (wordValue? limits.wordSize digits).any (· ≤ limits.maxInteger) then none
    else some (.integerTooLarge limits.maxInteger)

/-- What begins with a digit. -/
def scanNumber (limits : Limits) (cs : List Char) : Scanned :=
  let n := runLength Char.isDigit cs
  match cs.drop n with
  | '.' :: c :: fraction =>
      if c.isDigit then
        { kind := .float, length := n + 1 + runLength Char.isDigit (c :: fraction) }
      else scannedInteger limits (cs.take n)
  | _ => scannedInteger limits (cs.take n)

/-- What begins with a letter or an underscore. -/
def scanWord (cs : List Char) : Scanned :=
  let n := runLength isWordRest cs
  let word := String.ofList (cs.take n)
  let kind := TokenKind.ofWord word
  { kind
    length := n
    fault :=
      if kind = .identifier then (Keyword.miscased? word).map (.keywordCase · word) else none }

/-- The operator `short`, behind its sign, or `long` if an equals sign follows. -/
def scanSign (short long : Operator) : List Char → Scanned
  | '=' :: _ => { kind := .operator long, length := 2 }
  | _ => { kind := .operator short, length := 1 }

/-- A punctuation mark, or a character of no class. -/
def scanMark (c : Char) : Scanned :=
  match Punctuation.ofChar? c with
  | some p => { kind := .punctuation p, length := 1 }
  | none => ⟨.invalid, 1, some (.invalidCharacter c)⟩

/-- The lexeme at the front of a text.  `atStart` tells whether the text is the whole source
text. -/
def scan (limits : Limits) (atStart : Bool) : List Char → Scanned
  | [] => { kind := .endOfInput, length := 0 }
  | c :: cs =>
      if isBlank c || (atStart && c == byteOrderMark) then
        { kind := .whitespace, length := 1 + runLength isBlank cs }
      else if c == '/' then scanSlash cs
      else if c == '"' then scanString limits 0 cs
      else if c == '+' then scanSign .plus .plusAssign cs
      else if c == '=' then scanSign .assign .equal cs
      else if c == '!' then { kind := .operator .not, length := 1 }
      else if isWordStart c then scanWord (c :: cs)
      else if c.isDigit then scanNumber limits (c :: cs)
      else scanMark c

/-! ## The length of a lexeme -/

theorem runLength_le (p : Char → Bool) (cs : List Char) : runLength p cs ≤ cs.length :=
  (List.takeWhile_prefix p).length_le

theorem runLength_pos {p : Char → Bool} {c : Char} (h : p c = true) (cs : List Char) :
    0 < runLength p (c :: cs) := by
  simp [runLength, h]

theorem le_length_scanBlockComment (n : Nat) (cs : List Char) :
    n ≤ (scanBlockComment n cs).length := by
  fun_induction scanBlockComment n cs with
  | case1 n cs => exact Nat.le_add_right n 2
  | case2 n c cs _ ih => exact Nat.le_trans (Nat.le_succ n) ih
  | case3 n => exact Nat.le_refl n

theorem lt_length_scanString (limits : Limits) (n : Nat) (cs : List Char) :
    n < (scanString limits n cs).length := by
  fun_induction scanString limits n cs with
  | case1 n cs => exact Nat.lt_add_of_pos_right (Nat.zero_lt_two)
  | case2 n cs | case4 n => exact Nat.lt_succ_self n
  | case3 n c cs _ _ ih => exact Nat.lt_trans (Nat.lt_succ_self n) ih

theorem length_scanNumber_pos {limits : Limits} {c : Char} {cs : List Char}
    (h : c.isDigit = true) : 0 < (scanNumber limits (c :: cs)).length := by
  have hpos := runLength_pos h cs
  have hlength : 0 < ((c :: cs).take (runLength Char.isDigit (c :: cs))).length := by
    rw [List.length_take, List.length_cons]
    omega
  fun_cases scanNumber limits (c :: cs) with
  | case1 => simp only; omega
  | case2 | case3 => exact hlength

theorem scan_pos (limits : Limits) (atStart : Bool) (c : Char) (cs : List Char) :
    0 < (scan limits atStart (c :: cs)).length := by
  simp only [scan]
  split
  · simp only; omega
  split
  · fun_cases scanSlash cs with
    | case1 => simp only; omega
    | case2 cs => exact Nat.lt_of_lt_of_le Nat.zero_lt_two (le_length_scanBlockComment 2 cs)
    | case3 => exact Nat.one_pos
  split
  · exact lt_length_scanString limits 0 cs
  split
  · fun_cases scanSign .plus .plusAssign cs <;> simp only <;> omega
  split
  · fun_cases scanSign .assign .equal cs <;> simp only <;> omega
  split
  · exact Nat.one_pos
  split
  · exact runLength_pos (by simp [isWordRest, *]) cs
  split
  · exact length_scanNumber_pos (by assumption)
  · fun_cases scanMark c <;> exact Nat.one_pos

example : scan {} false "32768".toList = ⟨.integer, 5, some (.integerTooLarge 32767)⟩ := by
  decide +kernel
example : scan {} false "iF (".toList = ⟨.identifier, 2, some (.keywordCase .if "iF")⟩ := by
  decide +kernel
example : scan {} false "/*/ x".toList = ⟨.invalid, 5, some .unterminatedComment⟩ := by decide

end Pdl
