import Pdl.Text.GraphemeExtend
import Pdl.Text.Unprintable

/-!
# Escaped text

Two ways to write a character so that it shows and stays on its line.

* `quotedChar` is for a character between quotation marks in a message.  The
  quotes, the backslash and the common controls take a backslash; what has no
  printed form or would attach to its neighbour is written by its number, as
  in `\u{301}`.
* `lineSafe` is for a whole lexeme on a line of a report.  Only control
  characters change, and the text is not quoted.

`newline_not_mem_quotedChar` and `newline_not_mem_lineSafe` say that neither
form holds a newline.
-/

namespace Pdl

/-- A number in lower case hexadecimal, without leading zeros. -/
def hexDigits (n : Nat) : List Char := Nat.toDigits 16 n

/-- The code point of `c` as `\u{…}`. -/
def codePointEscape (c : Char) : List Char :=
  ['\\', 'u', '\x7b'] ++ hexDigits c.toNat ++ ['\x7d']

/-- A character as it is quoted in a message. -/
def quotedChar (c : Char) : List Char :=
  if c = '\x00' then ['\\', '0']
  else if c = '\t' then ['\\', 't']
  else if c = '\r' then ['\\', 'r']
  else if c = '\n' then ['\\', 'n']
  else if c = '\'' then ['\\', '\'']
  else if c = '"' then ['\\', '"']
  else if c = '\\' then ['\\', '\\']
  else if isGraphemeExtend c || isUnprintable c then codePointEscape c
  else [c]

/-- A character of a text between double quotes.  A single quote needs no
backslash there. -/
def quotedTextChar (c : Char) : List Char := if c = '\'' then [c] else quotedChar c

/-- A text between double quotes. -/
def quotedText (s : String) : String :=
  String.ofList ('"' :: s.toList.flatMap quotedTextChar ++ ['"'])

/-- Whether `c` is a control character: C0, DEL or C1. -/
def isControl (c : Char) : Bool := c.toNat ≤ 0x1F || (0x7F ≤ c.toNat && c.toNat ≤ 0x9F)

/-- A character on a line of a report. -/
def lineSafeChar (c : Char) : List Char :=
  if c = '\t' then ['\\', 't']
  else if c = '\r' then ['\\', 'r']
  else if c = '\n' then ['\\', 'n']
  else if isControl c then codePointEscape c
  else [c]

/-- A text on a line of a report. -/
def lineSafe (s : String) : String := String.ofList (s.toList.flatMap lineSafeChar)

/-! ## No newline -/

theorem newline_ne_digitChar (n : Nat) : '\n' ≠ n.digitChar := by
  by_cases h : n < 16
  · exact (by decide : ∀ m < 16, '\n' ≠ Nat.digitChar m) n h
  · have hn : n.digitChar = '*' := by
      unfold Nat.digitChar
      repeat rw [if_neg (by omega)]
    rw [hn]
    decide

theorem newline_not_mem_toDigitsCore (b : Nat) : ∀ (fuel n : Nat) (ds : List Char),
    '\n' ∉ ds → '\n' ∉ Nat.toDigitsCore b fuel n ds
  | 0, _, _, h => h
  | fuel + 1, n, ds, h => by
    have hd : '\n' ∉ (n % b).digitChar :: ds := by
      simp [h, newline_ne_digitChar]
    simp only [Nat.toDigitsCore]
    split
    · exact hd
    · exact newline_not_mem_toDigitsCore b fuel _ _ hd

theorem newline_not_mem_codePointEscape (c : Char) : '\n' ∉ codePointEscape c := by
  have h : '\n' ∉ hexDigits c.toNat := newline_not_mem_toDigitsCore 16 _ _ [] (by simp)
  simp [codePointEscape, h]

theorem newline_not_mem_quotedChar (c : Char) : '\n' ∉ quotedChar c := by
  by_cases hc : c = '\n'
  · subst hc; decide
  · unfold quotedChar
    repeat' split
    all_goals first
      | decide
      | exact newline_not_mem_codePointEscape c
      | exact fun h => hc (List.mem_singleton.1 h).symm

theorem newline_not_mem_lineSafeChar (c : Char) : '\n' ∉ lineSafeChar c := by
  by_cases hc : c = '\n'
  · subst hc; decide
  · unfold lineSafeChar
    repeat' split
    all_goals first
      | decide
      | exact newline_not_mem_codePointEscape c
      | exact fun h => hc (List.mem_singleton.1 h).symm

theorem newline_not_mem_lineSafe (s : String) : '\n' ∉ (lineSafe s).toList := by
  simp [lineSafe, newline_not_mem_lineSafeChar]

example : quotedChar '\u0301' = "\\u\x7b301\x7d".toList := by decide +kernel
example : quotedChar 'ñ' = ['ñ'] ∧ quotedChar '\x00' = ['\\', '0'] := by decide +kernel
example : quotedText "a\"'b" = "\"a\\\"'b\"" := by decide +kernel
example : lineSafe "a\nñ" = "a\\nñ" := by decide +kernel

end Pdl
