import DocDesk.Number.Decimal
import DocDesk.Text.Blank
import DocDesk.Text.Quoted

/-!
# Integer text

Reading a whole number: blanks around it, an optional sign, decimal digits of any script, single
underscores between digits.  A numeral of more than `digitLimit` digits is refused, and so is writing
a number that needs more.

Main statement: `readDigits_ok_iff` (the limit is the only reason to refuse digits).
-/

namespace DocDesk

/-- The greatest number of decimal digits an integer may be read from or written with. -/
def digitLimit : Nat := 4300

/-- Why an integer could not be read or written. -/
inductive DigitFault where
  /-- A numeral of too many digits was to be read. -/
  | unreadable (digits : Nat)
  /-- A number of too many digits was to be written. -/
  | unwritable
deriving DecidableEq, Repr

/-- The wording of a fault. -/
def DigitFault.message : DigitFault → String
  | .unreadable n =>
    "Exceeds the limit (" ++ toString digitLimit ++ " digits) for integer string conversion: value has "
      ++ toString n ++ " digits; use sys.set_int_max_str_digits() to increase the limit"
  | .unwritable =>
    "Exceeds the limit (" ++ toString digitLimit ++
      " digits) for integer string conversion; use sys.set_int_max_str_digits() to increase the limit"

/-- The number that a text of decimal digits writes, if the text is not too long. -/
def readDigits (cs : List Char) : Except DigitFault Nat :=
  if digitLimit < cs.length then .error (.unreadable cs.length)
  else .ok (Decimal.natOfDigits (Decimal.digitValues cs))

/-- Digits can be read exactly if there are not too many of them. -/
theorem readDigits_ok_iff {cs : List Char} :
    (∃ n, readDigits cs = .ok n) ↔ cs.length ≤ digitLimit := by
  unfold readDigits
  split
  · simp; omega
  · simp; omega

/-- The digits of a natural number. -/
def natText (n : Nat) : List Char := Nat.toDigits 10 n

/-- The digits of an integer, after a minus sign if it is negative. -/
def intText (i : Int) : List Char := (if i < 0 then ['-'] else []) ++ natText i.natAbs

/-- The digits of an integer, if they are not too many. -/
def intText? (i : Int) : Except DigitFault (List Char) :=
  if digitLimit < (natText i.natAbs).length then .error .unwritable else .ok (intText i)

/-! ## Whole numbers in free text -/

namespace Whole

/-- Why a text is no whole number. -/
inductive Fault where
  | malformed (text : String)
  | digits (fault : DigitFault)
deriving DecidableEq, Repr

/-- The wording of a fault; the quoted text is cut at two hundred characters. -/
def Fault.message : Fault → String
  | .malformed s =>
    "invalid literal for int() with base 10: " ++ String.ofList ((Text.quotedChars s.toList).take 200)
  | .digits f => f.message

/-- The part of a numeral made of digits and underscores. -/
def isNumeralChar (c : Char) : Bool := Text.isDigit c || c = '_'

/-- Every underscore stands between two digits. -/
def underscoresBetween : List Char → Bool
  | [] => true
  | ['_'] => false
  | '_' :: '_' :: _ => false
  | _ :: r => underscoresBetween r

/-- Splits a sign off. -/
def splitSign : List Char → Bool × List Char
  | '-' :: r => (true, r)
  | '+' :: r => (false, r)
  | r => (false, r)

/-- Reads a whole number.  Too many digits are noticed before anything that follows the digits. -/
def read (s : String) : Except Fault Int :=
  let (negative, body) := splitSign (Text.strip s.toList)
  let numeral := body.takeWhile isNumeralChar
  let rest := body.dropWhile isNumeralChar
  let digits := numeral.filter Text.isDigit
  if numeral.head? = some '_' || !underscoresBetween numeral || digits.isEmpty then
    .error (.malformed s)
  else match readDigits digits with
    | .error f => .error (.digits f)
    | .ok n =>
      if rest.isEmpty then .ok (if negative then -(n : Int) else n) else .error (.malformed s)

end Whole

end DocDesk
