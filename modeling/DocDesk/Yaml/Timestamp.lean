import DocDesk.Calendar
import DocDesk.Number.Decimal
import DocDesk.Number.Whole

/-!
# Dates and times in YAML

A timestamp is a date, or a date with a time of day, an optional fraction of a second and an optional
zone.  It is written again in the form `year-month-dayThour:minute:second`.

Main definitions: `ofChars?` and `text`.
-/

namespace DocDesk.Yaml

/-- An offset from universal time. -/
structure Zone where
  negative : Bool
  hours : Nat
  minutes : Nat
deriving DecidableEq, Repr

/-- A time of day; `zone` is there if the text names one. -/
structure TimeOfDay where
  hour : Nat
  minute : Nat
  second : Nat
  micros : Nat
  zone : Option Zone
deriving DecidableEq, Repr

/-- A timestamp as it is written, with its fields not yet checked. -/
structure Timestamp where
  year : Nat
  month : Nat
  day : Nat
  time : Option TimeOfDay
deriving DecidableEq, Repr

namespace Timestamp

/-! ## Reading -/

/-- The digits at the front, with their value, their number and what follows. -/
def digits (cs : List Char) : Nat × Nat × List Char :=
  let ds := cs.takeWhile Char.isDigit
  (Decimal.natOfDigits (Decimal.digitValues ds), ds.length, cs.dropWhile Char.isDigit)

/-- One or two digits. -/
def oneOrTwo? (cs : List Char) : Option (Nat × List Char) :=
  let (n, k, r) := digits cs
  if k = 1 ∨ k = 2 then some (n, r) else none

/-- Two digits. -/
def two? (cs : List Char) : Option (Nat × List Char) :=
  let (n, k, r) := digits cs
  if k = 2 then some (n, r) else none

/-- A given character. -/
def char? (c : Char) : List Char → Option (List Char)
  | d :: r => if d = c then some r else none
  | [] => none

/-- A blank between the parts of a timestamp. -/
def isGap (c : Char) : Bool := c = ' ' || c = '\t'

/-- The mark between date and time: a letter, or blanks. -/
def timeMark? : List Char → Option (List Char)
  | [] => none
  | c :: r =>
    if c = 'T' ∨ c = 't' then some r
    else if isGap c then some (r.dropWhile isGap)
    else none

/-- The fraction of a second in microseconds, cut to six digits. -/
def micros (ds : List Char) : Nat :=
  let six := ds.take 6
  Decimal.natOfDigits (Decimal.digitValues six) * 10 ^ (6 - six.length)

/-- An optional fraction of a second. -/
def fraction (cs : List Char) : Nat × List Char :=
  match cs with
  | '.' :: r => (micros (r.takeWhile Char.isDigit), r.dropWhile Char.isDigit)
  | _ => (0, cs)

/-- The zone at the end of a timestamp, which may be missing. -/
def zone? (cs : List Char) : Option (Option Zone) :=
  match cs with
  | [] => some none
  | _ =>
    match cs.dropWhile isGap with
    | ['Z'] => some (some ⟨false, 0, 0⟩)
    | c :: r =>
      if c = '+' ∨ c = '-' then do
        let (hours, r) ← oneOrTwo? r
        match r with
        | [] => some (some ⟨c = '-', hours, 0⟩)
        | _ => do
          let (minutes, r) ← two? (← char? ':' r)
          if r.isEmpty then some (some ⟨c = '-', hours, minutes⟩) else none
      else none
    | [] => none

/-- The time of day after its mark. -/
def time? (cs : List Char) : Option TimeOfDay := do
  let (hour, r) ← oneOrTwo? cs
  let (minute, r) ← two? (← char? ':' r)
  let (second, r) ← two? (← char? ':' r)
  let (micros, r) := fraction r
  let zone ← zone? r
  some ⟨hour, minute, second, micros, zone⟩

/-- A timestamp, with the word on whether month and day have two digits each. -/
def read? (cs : List Char) : Option (Timestamp × Bool) := do
  let (year, k, r) := digits cs
  if k ≠ 4 then none
  else do
    let monthText ← char? '-' r
    let (month, r) ← oneOrTwo? monthText
    let dayText ← char? '-' r
    let (day, r) ← oneOrTwo? dayText
    let full := (two? monthText).isSome && (two? dayText).isSome
    match r with
    | [] => some (⟨year, month, day, none⟩, full)
    | _ => do
      let time ← time? (← timeMark? r)
      some (⟨year, month, day, some time⟩, full)

/-- The timestamp that a text writes. -/
def ofChars? (cs : List Char) : Option Timestamp := (read? cs).map Prod.fst

/-- A plain text that counts as a timestamp: a date alone needs two digits for month and day. -/
def isPlain (cs : List Char) : Bool :=
  match read? cs with
  | some (t, full) => t.time.isSome || full
  | none => false

/-! ## Checking -/

/-- Why a timestamp names no moment. -/
inductive Fault where
  | zone (days seconds : Int)
  | year (n : Nat)
  | month
  | day
  | hour
  | minute
  | second
deriving DecidableEq, Repr

/-- A span in days and seconds as messages show it. -/
def spanText (days seconds : Int) : String :=
  let part (name : String) (n : Int) : List String :=
    if n = 0 then [] else [name ++ "=" ++ String.ofList (intText n)]
  "datetime.timedelta(" ++ ", ".intercalate (part "days" days ++ part "seconds" seconds) ++ ")"

/-- The wording of a fault. -/
def Fault.message : Fault → String
  | .zone days seconds =>
    "offset must be a timedelta strictly between -timedelta(hours=24) and timedelta(hours=24), not "
      ++ spanText days seconds ++ "."
  | .year n => "year " ++ String.ofList (natText n) ++ " is out of range"
  | .month => "month must be in 1..12"
  | .day => "day is out of range for month"
  | .hour => "hour must be in 0..23"
  | .minute => "minute must be in 0..59"
  | .second => "second must be in 0..59"

/-- The seconds of an offset. -/
def Zone.seconds (z : Zone) : Int :=
  let n : Int := z.hours * 3600 + z.minutes * 60
  if z.negative then -n else n

/-- The fault of a date. -/
def dateFault? (t : Timestamp) : Option Fault :=
  if t.year < 1 ∨ 9999 < t.year then some (.year t.year)
  else if t.month < 1 ∨ 12 < t.month then some .month
  else if t.day < 1 ∨ Calendar.daysInMonth t.year t.month < t.day then some .day
  else none

/-- The fault of a time of day. -/
def timeFault? (t : TimeOfDay) : Option Fault :=
  if 23 < t.hour then some .hour
  else if 59 < t.minute then some .minute
  else if 59 < t.second then some .second
  else none

/-- The fault of a zone. -/
def zoneFault? (z : Zone) : Option Fault :=
  let s := Zone.seconds z
  if s ≤ -86400 ∨ 86400 ≤ s then some (.zone (s.fdiv 86400) (s.fmod 86400)) else none

/-- The first fault of a timestamp: of its zone, its date, its time of day. -/
def fault? (t : Timestamp) : Option Fault :=
  ((t.time.bind TimeOfDay.zone).bind zoneFault?) <|> dateFault? t <|> (t.time.bind timeFault?)

/-! ## Writing -/

/-- A number filled with zeros to a width. -/
def padded (width n : Nat) : List Char :=
  let ds := Nat.toDigits 10 n
  List.replicate (width - ds.length) '0' ++ ds

/-- A date. -/
def dateText (t : Timestamp) : List Char :=
  padded 4 t.year ++ '-' :: padded 2 t.month ++ '-' :: padded 2 t.day

/-- An offset as a sign, hours and minutes. -/
def zoneText (z : Zone) : List Char :=
  let s := Zone.seconds z
  (if s < 0 then '-' else '+') :: padded 2 (s.natAbs / 3600) ++ ':' :: padded 2 (s.natAbs / 60 % 60)

/-- A time of day. -/
def timeText (t : TimeOfDay) : List Char :=
  padded 2 t.hour ++ ':' :: padded 2 t.minute ++ ':' :: padded 2 t.second
    ++ (if t.micros = 0 then [] else '.' :: padded 6 t.micros)
    ++ (match t.zone with
      | some z => zoneText z
      | none => [])

/-- A timestamp. -/
def text (t : Timestamp) : String :=
  String.ofList (match t.time with
    | none => dateText t
    | some time => dateText t ++ 'T' :: timeText time)

end Timestamp

end DocDesk.Yaml
