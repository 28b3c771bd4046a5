/-!
# Codes of diagnostics

A code is a letter and a number, written with at least four digits.  The
thousands of the number tell the phase of the analysis that the code belongs
to.
-/

namespace Pdl

/-- A phase of the analysis. -/
inductive Phase where
  /-- Cutting the text into lexemes. -/
  | lexical
  /-- Reading the lexemes by the grammar. -/
  | grammatical
deriving Repr, DecidableEq

/-- The name of a phase in reports. -/
def Phase.name : Phase → String
  | lexical => "lexical"
  | grammatical => "syntax"

/-- The code of a kind of diagnostic. -/
structure Code where
  /-- What stands before the number: `E` for errors, `W` for warnings. -/
  letter : String
  /-- The number. -/
  number : Nat
deriving Repr, DecidableEq

namespace Code

/-- The written form, the number filled up to four digits. -/
def text (c : Code) : String :=
  let digits := toString c.number
  c.letter ++ String.ofList (List.replicate (4 - digits.length) '0') ++ digits

/-- The phase that the thousands of the number stand for. -/
def phase? (c : Code) : Option Phase :=
  if 1000 ≤ c.number ∧ c.number < 2000 then some .lexical
  else if 2000 ≤ c.number ∧ c.number < 3000 then some .grammatical
  else none

/-- A character that begins no lexeme. -/
def invalidCharacter : Code := ⟨"E", 1001⟩
/-- A string literal without its closing quote. -/
def unterminatedString : Code := ⟨"E", 1002⟩
/-- An integer literal past the greatest value. -/
def integerTooLarge : Code := ⟨"E", 1003⟩
/-- A string literal with too many characters. -/
def stringTooLong : Code := ⟨"E", 1004⟩
/-- A block comment without its end. -/
def unterminatedComment : Code := ⟨"E", 1005⟩
/-- A reserved word with capital letters. -/
def keywordCase : Code := ⟨"W", 1001⟩
/-- A token that begins none of the constructs that may stand here. -/
def unexpectedToken : Code := ⟨"E", 2001⟩
/-- A token in the place of the only one that may stand here. -/
def expectedToken : Code := ⟨"E", 2002⟩
/-- The end of the input before the construct is complete. -/
def unexpectedEnd : Code := ⟨"E", 2003⟩

end Code

example : (Code.mk "E" 7).text = "E0007" ∧ (Code.mk "" 12345).text = "12345" := by decide +kernel

end Pdl
