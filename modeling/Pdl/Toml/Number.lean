import Pdl.Toml.Scan

/-!
# Numbers

An integer is written in base ten with or without a sign, or without a sign in
base sixteen, eight or two after `0x`, `0o` or `0b`.  A single underscore may
stand between two digits.  In base ten no zero may come first, and an integer
has to fit into 64 bits with a sign.

A number with a point or an exponent, and `inf` and `nan`, are floating-point
numbers.  They are kept as written.  A positive one that double precision
rounds to infinity is refused.
-/

namespace Pdl.Toml

/-- A floating-point number. -/
inductive Floating where
  /-- Digits times a power of ten. -/
  | decimal (negative : Bool) (digits : Nat) (exponent : Int)
  | infinity (negative : Bool)
  | notANumber
deriving Repr, DecidableEq

/-- The value of a digit in base 16 or below. -/
def digitValue (c : Char) : Nat :=
  if c.isDigit then c.toNat - '0'.toNat
  else if 'a' ≤ c then c.toNat - 'a'.toNat + 10
  else c.toNat - 'A'.toNat + 10

/-- The number that digits write in a base, after `n`. -/
def digitsValue (base : Nat) (n : Nat) (ds : List Char) : Nat :=
  ds.foldl (fun n d => base * n + digitValue d) n

/-- Whether `c` is a digit in a base. -/
def isDigitIn (base : Nat) (c : Char) : Bool :=
  (c.isDigit || ('a' ≤ c && c ≤ 'f') || ('A' ≤ c && c ≤ 'F')) && digitValue c < base

/-- The digits that go on a number, each with an underscore before it or
not. -/
def moreDigits (base : Nat) : Reader (List Char)
  | [] => some ([], [])
  | '_' :: [] => none
  | '_' :: d :: r =>
      if isDigitIn base d then (moreDigits base r).map fun (ds, r) => (d :: ds, r) else none
  | d :: r =>
      if isDigitIn base d then (moreDigits base r).map fun (ds, r) => (d :: ds, r)
      else some ([], d :: r)

/-- One digit or more. -/
def someDigits (base : Nat) : Reader (List Char)
  | d :: r =>
      if isDigitIn base d then (moreDigits base r).map fun (ds, r) => (d :: ds, r) else none
  | [] => none

/-- Digits in base ten without a zero before others. -/
def plainDigits : Reader (List Char)
  | '0' :: r => some (['0'], r)
  | cs => someDigits 10 cs

/-- A sign, and whether it is a minus. -/
def sign : List Char → Bool × List Char
  | '-' :: r => (true, r)
  | '+' :: r => (false, r)
  | cs => (false, cs)

/-- An integer that fits into 64 bits with a sign. -/
def word? (n : Int) : Option Int :=
  if -0x8000000000000000 ≤ n ∧ n < 0x8000000000000000 then some n else none

/-- An integer in a base other than ten, after its two first characters. -/
def basedInteger (base : Nat) (cs : List Char) : Option (Int × List Char) := do
  let (ds, r) ← someDigits base cs
  return (← word? (digitsValue base 0 ds), r)

/-- An exponent of ten, if one is there. -/
def exponent (cs : List Char) : Option (Option Int × List Char) :=
  let digits (cs : List Char) : Option (Option Int × List Char) := do
    let (negative, r) := sign cs
    let (ds, r) ← someDigits 10 r
    let n : Int := digitsValue 10 0 ds
    return (some (if negative then -n else n), r)
  match cs with
  | 'e' :: r => digits r
  | 'E' :: r => digits r
  | _ => some (none, cs)

/-- The digits after a point, if one is there. -/
def fraction (cs : List Char) : Option (Option (List Char) × List Char) :=
  match cs with
  | '.' :: r => (someDigits 10 r).map fun (ds, r) => (some ds, r)
  | _ => some (none, cs)

/-- Whether double precision rounds `digits * 10 ^ exponent` to infinity, which
it does from halfway past the largest number. -/
def overflows (digits : Nat) (exponent : Int) : Bool :=
  let size : Int := (Nat.toDigits 10 digits).length + exponent
  let limit := Nat.pow 2 1024 - Nat.pow 2 970
  if digits = 0 || size < 309 then false
  else if 309 < size then true
  else match exponent with
    | .ofNat n => limit ≤ digits * Nat.pow 10 n
    | .negSucc n => limit * Nat.pow 10 (n + 1) ≤ digits

/-- A number in base ten, or `inf` or `nan` after a sign. -/
def decimal (cs : List Char) : Option ((Int ⊕ Floating) × List Char) :=
  let (negative, r) := sign cs
  match r with
  | 'i' :: 'n' :: 'f' :: r => some (.inr (.infinity negative), r)
  | 'n' :: 'a' :: 'n' :: r => some (.inr .notANumber, r)
  | _ => do
      let (whole, r) ← plainDigits r
      let (part, r) ← fraction r
      let (power, r) ← exponent r
      if part.isNone && power.isNone then
        let n : Int := digitsValue 10 0 whole
        return (.inl (← word? (if negative then -n else n)), r)
      let digits := digitsValue 10 0 (whole ++ part.getD [])
      let power := power.getD 0 - (part.getD []).length
      if !negative && overflows digits power then none
      else some (.inr (.decimal negative digits power), r)

/-- A number. -/
def number (cs : List Char) : Option ((Int ⊕ Floating) × List Char) :=
  let based (base : Nat) (r : List Char) := (basedInteger base r).map fun (n, r) => (.inl n, r)
  match cs with
  | '0' :: 'x' :: r => based 16 r
  | '0' :: 'o' :: r => based 8 r
  | '0' :: 'b' :: r => based 2 r
  | _ => decimal cs

example : number "1_000,".toList = some (.inl 1000, [',']) := by decide +kernel
example : number "-0xF".toList = some (.inl 0, "xF".toList) := by decide +kernel
example : number "0xfF".toList = some (.inl 255, []) := by decide +kernel
example : number "1__0".toList = none ∧ number "9223372036854775808".toList = none := by
  decide +kernel
example : number "-9223372036854775808".toList = some (.inl (-0x8000000000000000), []) := by decide +kernel
example : number "1.5e-3".toList = some (.inr (.decimal false 15 (-4)), []) := by decide +kernel
example : number "1e309".toList = none ∧ (number "-1e309".toList).isSome := by decide +kernel
example : overflows 17976931348623158 292 = false ∧ overflows 17976931348623159 292 := by
  decide +kernel

end Pdl.Toml
