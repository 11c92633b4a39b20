import DocDesk.Calendar
import DocDesk.Number.Whole

/-!
# Times of day

The time of day of a timestamp in seconds since 1970.  A timestamp with a fraction is first rounded
to microseconds, a half going to the even one, so that it can reach the next second.

Main definition: `displayTime`.
-/

namespace DocDesk

/-- Seconds since the start of 1970. -/
inductive Timestamp where
  | whole (seconds : Int)
  | real (seconds : Binary64)
deriving DecidableEq

namespace Timestamp

/-- Why a timestamp has no time of day. -/
inductive Fault where
  | notANumber
  | outOfRange
  | beyondCalendar
  | yearOutOfRange (year : Int)
deriving DecidableEq, Repr

/-- The wording of a fault. -/
def Fault.message : Fault → String
  | .notANumber => "Invalid value NaN (not a number)"
  | .outOfRange => "timestamp out of range for platform time_t"
  | .beyondCalendar => "[Errno 75] Value too large for defined data type"
  | .yearOutOfRange year => "year " ++ String.ofList (intText year) ++ " is out of range"

/-- The integer nearest to a finite double, a half going to the even one. -/
def roundHalfEven (x : Binary64) : Int :=
  let u := x.signedUnits?.getD 0
  let one : Int := Binary64.unitsPerOne
  let low := u.fdiv one
  let twice := 2 * (u - low * one)
  if one < twice || (twice = one && low % 2 = 1) then low + 1 else low

/-- The whole seconds of a finite double, after rounding its fraction to microseconds. -/
def secondsOf (x : Binary64) : Int :=
  let u := x.signedUnits?.getD 0
  let one : Int := Binary64.unitsPerOne
  let whole := u.tdiv one
  let micros := roundHalfEven ((Binary64.ofSignedUnits (u - whole * one)).mul (.ofInt 1000000))
  if 1000000 ≤ micros then whole + 1 else if micros < 0 then whole - 1 else whole

/-- The whole seconds of a timestamp. -/
def seconds? : Timestamp → Except Fault Int
  | .whole n => .ok n
  | .real x =>
    if x.isNaN then .error .notANumber
    else if x.isFinite then .ok (secondsOf x)
    else .error .outOfRange

/-- A number as two digits. -/
def twoDigits (n : Nat) : List Char := if n < 10 then '0' :: natText n else natText n

/-- A year as a signed number of thirty-two bits. -/
def yearNumber (year : Int) : Int := year.bmod (2 ^ 32)

/-- The time of day as hours, minutes and seconds.  The day before has to be in the calendar too. -/
def displayTime (t : Timestamp) : Except Fault String := do
  let s ← t.seconds?
  if s < -(2 ^ 63) ∨ 2 ^ 63 ≤ s then .error .outOfRange
  else
    let day := s.fdiv 86400
    let year := Calendar.yearOfDay day
    if year - 1900 < -(2 ^ 31) ∨ 2 ^ 31 ≤ year - 1900 then .error .beyondCalendar
    else if year < 1 ∨ 9999 < year then .error (.yearOutOfRange (yearNumber year))
    else if Calendar.yearOfDay (day - 1) < 1 then .error (.yearOutOfRange 0)
    else
      let n := (s.fmod 86400).toNat
      .ok (String.ofList
        (twoDigits (n / 3600) ++ ':' :: twoDigits (n / 60 % 60) ++ ':' :: twoDigits (n % 60)))

end Timestamp

end DocDesk
