import Pdl.Text.Reader

/-!
# Blanks, line ends and comments

A blank is a space or a tab.  A line ends with a newline, which may have a
carriage return before it, or where the text ends.  A comment starts with `#`
and goes on through text characters, so it ends before the line does.
-/

namespace Pdl.Toml

/-- Whether `c` may stand in a text as it is: a tab, or no control character of
ASCII. -/
def isTextChar (c : Char) : Bool := c = '\t' || (0x20 ≤ c.toNat && c.toNat ≠ 0x7F)

/-- What follows the blanks at the front. -/
def skipBlanks : List Char → List Char
  | ' ' :: r => skipBlanks r
  | '\t' :: r => skipBlanks r
  | cs => cs

/-- What follows the newline at the front. -/
def lineBreak? : List Char → Option (List Char)
  | '\n' :: r => some r
  | '\r' :: '\n' :: r => some r
  | _ => none

/-- What follows the comment at the front, if there is one. -/
def skipComment : List Char → List Char
  | '#' :: r => r.dropWhile isTextChar
  | cs => cs

/-- What follows the rest of a line on which only blanks and a comment are
left. -/
def lineEnd? (cs : List Char) : Option (List Char) :=
  match skipComment (skipBlanks cs) with
  | [] => some []
  | r => lineBreak? r

/-- What follows the blanks and newlines at the front. -/
def skipSpace : List Char → List Char
  | ' ' :: r => skipSpace r
  | '\t' :: r => skipSpace r
  | '\n' :: r => skipSpace r
  | '\r' :: '\n' :: r => skipSpace r
  | cs => cs

/-- What follows the blanks, newlines and comments at the front; `comment`
says that the text begins inside a comment. -/
def skipFillerFrom (comment : Bool) : List Char → List Char
  | [] => []
  | '\n' :: r => skipFillerFrom false r
  | '\r' :: '\n' :: r => skipFillerFrom false r
  | c :: r =>
      if comment then
        if isTextChar c then skipFillerFrom true r else c :: r
      else if c = ' ' || c = '\t' then skipFillerFrom false r
      else if c = '#' then skipFillerFrom true r
      else c :: r

/-- What follows the blanks, newlines and comments at the front. -/
def skipFiller (cs : List Char) : List Char := skipFillerFrom false cs

theorem length_lineBreak? {cs r : List Char} (h : lineBreak? cs = some r) :
    r.length < cs.length := by
  unfold lineBreak? at h
  split at h
  · cases h; exact Nat.lt_succ_self _
  · cases h; exact Nat.lt_succ_of_lt (Nat.lt_succ_self _)
  · cases h

theorem length_skipSpace (cs : List Char) : (skipSpace cs).length ≤ cs.length := by
  fun_induction skipSpace cs <;> simp_all <;> omega

theorem length_skipBlanks (cs : List Char) : (skipBlanks cs).length ≤ cs.length := by
  fun_induction skipBlanks cs <;> simp_all <;> omega

example : lineEnd? " \t# x\r\ny".toList = some ['y'] := by decide
example : lineEnd? "# x\r".toList = none := by decide
example : skipFiller " # x\n\r\n y".toList = ['y'] := by decide

end Pdl.Toml
