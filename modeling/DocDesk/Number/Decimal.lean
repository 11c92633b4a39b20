import DocDesk.Number.Shortest
import DocDesk.Text.Digit

/-!
# Decimal text of doubles

Reading a decimal numeral as the nearest double, and writing a double with the fewest digits that
read back.  Main statement: `ofDecimal_zero`.
-/

namespace DocDesk

namespace Binary64

/-- The double nearest to a signed decimal.  A decimal of more than 310 digits before the point is
out of range, and one of more than 330 zeros after it is nearest to zero. -/
def ofDecimal (negative : Bool) (d : Decimal) : Binary64 :=
  if d.coefficient = 0 then .finite negative ⟨0, rankLimit_pos⟩
  else
    let place : Int := ((Nat.toDigits 10 d.coefficient).length : Int) + d.exponent
    if place > 310 then .infinite negative
    else if place < -330 then .finite negative ⟨0, rankLimit_pos⟩
    else
      let (num, den) := d.quotient unitsPerOne
      ofRank negative (roundRank num den)

/-- A decimal of zero is zero, whatever its exponent. -/
theorem ofDecimal_zero (negative : Bool) (e : Int) :
    ofDecimal negative ⟨0, e⟩ = .finite negative ⟨0, rankLimit_pos⟩ := rfl

end Binary64

/-! ## Reading -/

namespace Decimal

/-- The natural number that a list of digit values writes. -/
def natOfDigits (ds : List Nat) : Nat := ds.foldl (fun n d => 10 * n + d) 0

/-- The digit values of a text of decimal digits of any script. -/
def digitValues (cs : List Char) : List Nat := cs.filterMap Text.digit?

/-- Reads an exponent, after its mark: an optional sign and digits. -/
def readExponent (cs : List Char) : Int :=
  match cs with
  | '-' :: r => -(natOfDigits (digitValues r) : Int)
  | '+' :: r => natOfDigits (digitValues r)
  | r => natOfDigits (digitValues r)

/-- Reads the digits, the point and the exponent of a numeral that is known to be well formed. -/
def readUnsigned (cs : List Char) : Decimal :=
  let mantissa := cs.takeWhile fun c => c ≠ 'e' ∧ c ≠ 'E'
  let exponent := readExponent ((cs.dropWhile fun c => c ≠ 'e' ∧ c ≠ 'E').drop 1)
  let whole := mantissa.takeWhile (· ≠ '.')
  let fraction := (mantissa.dropWhile (· ≠ '.')).drop 1
  ⟨natOfDigits (digitValues whole ++ digitValues fraction), exponent - (digitValues fraction).length⟩

end Decimal

namespace Binary64

/-- Reads a decimal numeral that is known to be well formed: an optional sign, digits with at most
one point, an optional exponent. -/
def ofNumeral (cs : List Char) : Binary64 :=
  match cs with
  | '-' :: r => ofDecimal true (Decimal.readUnsigned r)
  | '+' :: r => ofDecimal false (Decimal.readUnsigned r)
  | r => ofDecimal false (Decimal.readUnsigned r)

/-! ## Writing -/

/-- An exponent as a sign and at least two digits. -/
def exponentText (e : Int) : List Char :=
  let ds := Nat.toDigits 10 e.natAbs
  (if e < 0 then '-' else '+') :: (if ds.length < 2 then '0' :: ds else ds)

/-- A decimal with digits `ds` and the point after the first `place` of them.  The positional form
serves while the point stands at most three zeros before and at most sixteen digits after the front;
else the exponent form. -/
def decimalText (ds : List Char) (place : Int) : List Char :=
  if place ≤ -4 ∨ 16 < place then
    match ds with
    | [] => []
    | [d] => d :: 'e' :: exponentText (place - 1)
    | d :: r => d :: '.' :: r ++ 'e' :: exponentText (place - 1)
  else if place ≤ 0 then
    '0' :: '.' :: List.replicate (-place).toNat '0' ++ ds
  else
    let n := place.toNat
    if ds.length ≤ n then ds ++ List.replicate (n - ds.length) '0' ++ ['.', '0']
    else ds.take n ++ '.' :: ds.drop n

/-- The text of a finite magnitude: the shortest decimal that reads back. -/
def magnitudeText (r : Nat) : List Char :=
  if r = 0 then ['0', '.', '0']
  else
    let d := shortest r
    let ds := Nat.toDigits 10 d.coefficient
    decimalText ds (ds.length + d.exponent)

/-- The text of a double, with given texts for the not-a-number value and for infinity. -/
def textWith (nanText infText : String) : Binary64 → List Char
  | .nan => nanText.toList
  | .infinite negative => (if negative then ['-'] else []) ++ infText.toList
  | .finite negative r => (if negative then ['-'] else []) ++ magnitudeText r

/-- The text of a double in messages and cells. -/
def text (x : Binary64) : String := String.ofList (x.textWith "nan" "inf")

end Binary64

end DocDesk
