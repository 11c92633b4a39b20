/-!
# Calendar

The proleptic Gregorian calendar: lengths of months, day numbers and the year of a day number.  Day
zero is the first of January 1970.  Main definition: `yearOfDay`.
-/

namespace DocDesk.Calendar

/-- A year with a twenty-ninth of February. -/
def isLeap (year : Int) : Bool := year % 4 = 0 && (year % 100 ≠ 0 || year % 400 = 0)

/-- The number of days of a month. -/
def daysInMonth (year : Int) (month : Nat) : Nat :=
  match month with
  | 2 => if isLeap year then 29 else 28
  | 4 | 6 | 9 | 11 => 30
  | _ => 31

/-- The calendar year that a day lies in.  Years are counted from March, in eras of four hundred
years. -/
def yearOfDay (day : Int) : Int :=
  let z := day + 719468
  let era := z.fdiv 146097
  let doe := z - era * 146097
  let yoe := (doe - doe / 1460 + doe / 36524 - doe / 146096) / 365
  let year := yoe + era * 400
  let doy := doe - (365 * yoe + yoe / 4 - yoe / 100)
  if 306 ≤ doy then year + 1 else year

end DocDesk.Calendar
