/-!
# Blank characters

The characters with the property White_Space: the tabs, spaces and line ends
that may stand between two lexemes.
-/

namespace Pdl

/-- The ranges of the property White_Space, both ends included. -/
def blankRanges : List (Nat × Nat) :=
  [(0x9, 0xD), (0x20, 0x20), (0x85, 0x85), (0xA0, 0xA0), (0x1680, 0x1680), (0x2000, 0x200A),
    (0x2028, 0x2029), (0x202F, 0x202F), (0x205F, 0x205F), (0x3000, 0x3000)]

/-- Whether a code point lies in one of the ranges. -/
def inRanges (ranges : List (Nat × Nat)) (n : Nat) : Bool :=
  ranges.any fun r => r.1 ≤ n && n ≤ r.2

/-- Whether `c` may stand between two lexemes. -/
def isBlank (c : Char) : Bool := inRanges blankRanges c.toNat

/-- A text without the blanks at its ends. -/
def trimBlanks (cs : List Char) : List Char :=
  ((cs.dropWhile isBlank).reverse.dropWhile isBlank).reverse

example : trimBlanks "\t a b\u3000".toList = "a b".toList := by decide
example : isBlank '\u3000' = true ∧ isBlank '\u200b' = false := by decide
example : (blankRanges.map fun r => r.2 - r.1 + 1).sum = 25 := by decide

end Pdl
