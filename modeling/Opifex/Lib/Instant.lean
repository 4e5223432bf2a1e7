import Mathlib.Data.Int.Basic
import Mathlib.Data.List.Basic

/-!
# Instants and their text

A point in time is a number of milliseconds since the epoch. `toISOString`
prints it in the proleptic Gregorian calendar, and `parse` reads that spelling
back; years beyond four digits are printed with a sign and six.
-/

/-- A point in time, in milliseconds. -/
abbrev Instant := ℤ

namespace Instant

/-- A day, in milliseconds. -/
def dayMs : ℤ := 24 * 60 * 60 * 1000

/-- Year, month and day of a number of days since the epoch. -/
def civil (days : ℤ) : ℤ × ℤ × ℤ :=
  let z := days + 719468
  let era := z / 146097
  let doe := z % 146097
  let yoe := (doe - doe / 1460 + doe / 36524 - doe / 146096) / 365
  let doy := doe - (365 * yoe + yoe / 4 - yoe / 100)
  let mp := (5 * doy + 2) / 153
  let day := doy - (153 * mp + 2) / 5 + 1
  let month := if mp < 10 then mp + 3 else mp - 9
  (yoe + era * 400 + (if month ≤ 2 then 1 else 0), month, day)

/-- The number of days since the epoch of a date. -/
def daysOf (year month day : ℤ) : ℤ :=
  let y := if month ≤ 2 then year - 1 else year
  let era := y / 400
  let yoe := y % 400
  let mp := if 2 < month then month - 3 else month + 9
  let doy := (153 * mp + 2) / 5 + day - 1
  era * 146097 + (yoe * 365 + yoe / 4 - yoe / 100 + doy) - 719468

/-- A number in a fixed width, with leading zeros. -/
def pad (width : ℕ) (n : ℤ) : String :=
  let digits := (toString n.toNat).toList
  String.ofList (List.replicate (width - digits.length) '0' ++ digits)

/-- The year, in four digits or signed in six. -/
def yearText (year : ℤ) : String :=
  if 0 ≤ year ∧ year ≤ 9999 then pad 4 year
  else (if year < 0 then "-" else "+") ++ pad 6 year.natAbs

/-- `toISOString()`. -/
def toISOString (t : Instant) : String :=
  let ms := t % dayMs
  let (year, month, day) := civil (t / dayMs)
  yearText year ++ "-" ++ pad 2 month ++ "-" ++ pad 2 day ++ "T" ++
    pad 2 (ms / 3600000) ++ ":" ++ pad 2 (ms / 60000 % 60) ++ ":" ++
    pad 2 (ms / 1000 % 60) ++ "." ++ pad 3 (ms % 1000) ++ "Z"

/-- Digits as a number, or nothing if one of them is not a digit. -/
def readDigits (cs : List Char) : Option ℤ :=
  if cs.all Char.isDigit then
    some (cs.foldl (fun n c => 10 * n + (c.toNat - 48 : ℕ)) 0)
  else none

/-- `new Date(text)` of the spelling `toISOString` prints; any other is an
invalid date. -/
def parse (text : String) : Option Instant :=
  match text.toList with
  | [y1, y2, y3, y4, '-', m1, m2, '-', d1, d2, 'T', h1, h2, ':', n1, n2, ':',
      s1, s2, '.', f1, f2, f3, 'Z'] => do
    let year ← readDigits [y1, y2, y3, y4]
    let month ← readDigits [m1, m2]
    let day ← readDigits [d1, d2]
    let hour ← readDigits [h1, h2]
    let minute ← readDigits [n1, n2]
    let second ← readDigits [s1, s2]
    let milli ← readDigits [f1, f2, f3]
    return daysOf year month day * dayMs + hour * 3600000 + minute * 60000 +
      second * 1000 + milli
  | _ => none

example : toISOString 1785672000123 = "2026-08-02T12:00:00.123Z" := by
  decide

example : parse "2026-08-02T12:00:00.123Z" = some 1785672000123 := by
  decide

end Instant
