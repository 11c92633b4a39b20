import DocDesk.Number.Rounding

/-!
# Shortest decimals

The shortest decimal that reads back as a given double.  The reals that round to the magnitude with
number `r` lie between the two midpoints beside it, the midpoints included exactly when `r` is even.
For one digit, two digits and so on, the two neighbours of the magnitude on the decimal grid of that
many digits are tried; the first grid that reaches into the interval wins, and the nearer of two
neighbours, or of two equally near ones the even one.
-/

namespace DocDesk

/-- The non-negative decimal `coefficient * 10 ^ exponent`. -/
structure Decimal where
  coefficient : Nat
  exponent : Int
deriving DecidableEq, Repr, Inhabited

namespace Decimal

/-- Moves factors of ten from the coefficient to the exponent, at most `n` of them. -/
def trim : Nat → Decimal → Decimal
  | 0, d => d
  | n + 1, d =>
    if d.coefficient ≠ 0 ∧ d.coefficient % 10 = 0 then trim n ⟨d.coefficient / 10, d.exponent + 1⟩ else d

/-- The value counted in units of which `one` make one, as a quotient of naturals. -/
def quotient (one : Nat) (d : Decimal) : Nat × Nat :=
  (d.coefficient * one * 10 ^ d.exponent.toNat, 10 ^ (-d.exponent).toNat)

end Decimal

namespace Binary64

/-- A decimal lies in the interval of reals that round to the magnitude numbered `r`, for `r ≠ 0`. -/
def roundsToRank (r : Nat) (d : Decimal) : Bool :=
  let (num, den) := d.quotient unitsPerOne
  let low := (units (r - 1) + units r) * den
  let high := (units r + units (r + 1)) * den
  if r % 2 = 0 then low ≤ 2 * num && 2 * num ≤ high else low < 2 * num && 2 * num < high

/-- The number of decimal digits before the point of the magnitude numbered `r`; for a magnitude
below one, minus the number of zeros after the point. -/
def pointPlace (r : Nat) : Int :=
  ((Nat.toDigits 10 (units r * 10 ^ 400 / unitsPerOne)).length : Int) - 400

/-- The decimal of `n` digits nearest to the magnitude numbered `r` among those that round to it. -/
def nearestOfDigits? (r n : Nat) : Option Decimal :=
  let e : Int := pointPlace r - n
  let num := units r * 10 ^ (-e).toNat
  let den := unitsPerOne * 10 ^ e.toNat
  let c := num / den
  let below : Decimal := ⟨c, e⟩
  let above : Decimal := ⟨c + 1, e⟩
  match roundsToRank r below, roundsToRank r above with
  | true, true =>
    let twice := 2 * (num % den)
    some (if twice < den || (twice = den && c % 2 = 0) then below else above)
  | true, false => some below
  | false, true => some above
  | false, false => none

/-- The shortest decimal that rounds to the magnitude numbered `r`. -/
def shortest (r : Nat) : Decimal :=
  if r = 0 then ⟨0, 0⟩
  else
    match (List.range' 1 17).findSome? (nearestOfDigits? r) with
    | some d => d.trim 17
    | none => ⟨units r, 0⟩

end Binary64

end DocDesk
