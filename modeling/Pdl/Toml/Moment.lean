import Pdl.Toml.Scan

/-!
# Dates and times

A moment is a date, a time of day, or both; with both there may be an offset
from universal time.  Between date and time stands a `T` in either case, or a
space.  A date has to exist in the calendar.  A time has its seconds, and
second 60 is allowed.

The readers decide by the first characters.  Four digits and a hyphen make a
date, two digits of an hour and a colon make a time, and what follows then has
to be right.
-/

namespace Pdl.Toml

/-- A day of the calendar. -/
structure Date where
  year : Nat
  month : Nat
  day : Nat
deriving Repr, DecidableEq

/-- A time of day. -/
structure Time where
  hour : Nat
  minute : Nat
  second : Nat
  /-- The digits after the point. -/
  fraction : List Char
deriving Repr, DecidableEq

/-- A date, a time, or both. -/
structure Moment where
  date : Option Date
  time : Option Time
  /-- Minutes ahead of universal time. -/
  offset : Option Int
deriving Repr, DecidableEq

/-- A number of `n` digits, written after `m`. -/
def fixedNumberFrom (m : Nat) : Nat → Reader Nat
  | 0, cs => some (m, cs)
  | n + 1, d :: r =>
      if d.isDigit then fixedNumberFrom (10 * m + (d.toNat - '0'.toNat)) n r else none
  | _ + 1, [] => none

/-- A number of `n` digits. -/
def fixedNumber (n : Nat) : Reader Nat := fixedNumberFrom 0 n

/-- A number of two digits in a range. -/
def twoDigits (low high : Nat) (cs : List Char) : Option (Nat × List Char) := do
  let (n, r) ← fixedNumber 2 cs
  if low ≤ n ∧ n ≤ high then some (n, r) else none

/-- The number of days in a month. -/
def daysIn (year month : Nat) : Nat :=
  if month = 2 then
    if year % 4 = 0 ∧ (year % 100 ≠ 0 ∨ year % 400 = 0) then 29 else 28
  else if month = 4 ∨ month = 6 ∨ month = 9 ∨ month = 11 then 30
  else 31

/-- The digits after a point, if a point and a digit are there. -/
def secondFraction (cs : List Char) : List Char × List Char :=
  match cs with
  | '.' :: d :: r =>
      if d.isDigit then ((d :: r).takeWhile Char.isDigit, (d :: r).dropWhile Char.isDigit)
      else ([], cs)
  | _ => ([], cs)

/-- The rest of a time whose hour and colon have been read. -/
def timeAfterHour (hour : Nat) (cs : List Char) : Option (Time × List Char) := do
  let (minute, r) ← twoDigits 0 59 cs
  let (second, r) ← twoDigits 0 60 (← after? ':' r)
  let (fraction, r) := secondFraction r
  return (⟨hour, minute, second, fraction⟩, r)

/-- The hour at the front, if a colon follows it. -/
def hour? (cs : List Char) : Option (Nat × List Char) := do
  let (hour, r) ← twoDigits 0 23 cs
  return (hour, ← after? ':' r)

/-- An offset from universal time, if one is there. -/
def offset (cs : List Char) : Option (Option Int × List Char) :=
  let shift (ahead : Bool) (r : List Char) : Option (Option Int × List Char) := do
    let (hour, r) ← twoDigits 0 23 r
    let (minute, r) ← twoDigits 0 59 (← after? ':' r)
    let n : Int := 60 * hour + minute
    return (some (if ahead then n else -n), r)
  match cs with
  | 'Z' :: r => some (some 0, r)
  | 'z' :: r => some (some 0, r)
  | '+' :: r => shift true r
  | '-' :: r => shift false r
  | _ => some (none, cs)

/-- The time after a date, if one is there. -/
def timeAfterDate? (cs : List Char) : Option (Nat × List Char) :=
  match cs with
  | 'T' :: r => hour? r
  | 't' :: r => hour? r
  | ' ' :: r => hour? r
  | _ => none

/-- The rest of a moment whose year and hyphen have been read. -/
def momentAfterYear (year : Nat) (cs : List Char) : Option (Moment × List Char) := do
  let (month, r) ← twoDigits 1 12 cs
  let (day, r) ← twoDigits 1 31 (← after? '-' r)
  if daysIn year month < day then none
  match timeAfterDate? r with
  | none => return (⟨some ⟨year, month, day⟩, none, none⟩, r)
  | some (hour, r) =>
      let (time, r) ← timeAfterHour hour r
      let (offset, r) ← offset r
      return (⟨some ⟨year, month, day⟩, some time, offset⟩, r)

/-- The year at the front, if a hyphen follows it. -/
def year? (cs : List Char) : Option (Nat × List Char) := do
  let (year, r) ← fixedNumber 4 cs
  return (year, ← after? '-' r)

/-- Whether the text begins as a moment does. -/
def startsMoment (cs : List Char) : Bool := (year? cs).isSome || (hour? cs).isSome

/-- A moment. -/
def moment (cs : List Char) : Option (Moment × List Char) :=
  match year? cs with
  | some (year, r) => momentAfterYear year r
  | none => do
      let (hour, r) ← hour? cs
      let (time, r) ← timeAfterHour hour r
      return (⟨none, some time, none⟩, r)

example : moment "2024-02-29 # x".toList = some (⟨some ⟨2024, 2, 29⟩, none, none⟩, " # x".toList) := by
  decide +kernel
example : moment "2023-02-29".toList = none := by decide +kernel
example : moment "07:32:60.5".toList = some (⟨none, some ⟨7, 32, 60, ['5']⟩, none⟩, []) := by
  decide +kernel
example : (moment "1979-05-27t00:32:00-07:00".toList).map (·.1.offset) = some (some (-420)) := by
  decide +kernel
example : moment "07:32".toList = none ∧ startsMoment "24:00".toList = false := by decide +kernel

end Pdl.Toml
