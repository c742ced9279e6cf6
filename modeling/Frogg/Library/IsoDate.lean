/-
  Subject:   Times as `toISOString` writes them, and the order of what it writes.
-/
import Frogg.Library.JsString

namespace Frogg.Library.IsoDate

/-! ## 1. Dates -/

variable (year : Nat)

def isLeap : Bool := year % 4 = 0 && (year % 100 ≠ 0 || year % 400 = 0)

def yearDays : Nat := if isLeap year then 366 else 365

/-- Days of the month, January as 0. -/
def monthDays (year month : Nat) : Nat :=
  if month = 1 then if isLeap year then 29 else 28
  else if month = 3 ∨ month = 5 ∨ month = 8 ∨ month = 10 then 30
  else 31

/-- The unit from `i` on in which a day lies, and its place in that unit. -/
def splitBy (length : Nat → Nat) : Nat → Nat → Nat → Nat × Nat
  | 0, i, day => (i, day)
  | turns + 1, i, day =>
    if day < length i then (i, day) else splitBy length turns (i + 1) (day - length i)

/-- The number in decimal, with leading zeros up to the width. -/
def padded : Nat → Nat → List Char
  | 0, _ => []
  | width + 1, n => padded width (n / 10) ++ [Nat.digitChar (n % 10)]

/-- Four digits up to the year 9999, then a sign and six. -/
def yearChars : List Char :=
  if year < 10000 then padded 4 year else '+' :: padded 6 year

/-- `new Date(ms).toISOString()`, from 1970 on. -/
def toISOString (ms : Nat) : String :=
  let date := splitBy yearDays (ms / 86400000) 1970 (ms / 86400000)
  let monthDay := splitBy (monthDays date.1) 12 0 date.2
  String.ofList <| yearChars date.1 ++ '-' :: padded 2 (monthDay.1 + 1) ++ '-' ::
    padded 2 (monthDay.2 + 1) ++ 'T' :: padded 2 (ms / 3600000 % 24) ++ ':' ::
    padded 2 (ms / 60000 % 60) ++ ':' :: padded 2 (ms / 1000 % 60) ++ '.' ::
    padded 3 (ms % 1000) ++ ['Z']

example : toISOString 1788220800123 = "2026-09-01T00:00:00.123Z" := by decide

end Frogg.Library.IsoDate
