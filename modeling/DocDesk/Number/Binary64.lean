/-!
# Double-precision numbers

A double is the not-a-number value, an infinity, or a sign with a magnitude.  The finite magnitudes
are numbered in increasing order, from `0` for zero to `rankLimit - 1` for the largest, so that
comparing doubles is comparing integers and the next double is the next number.  The magnitude with
number `r` is `units r` times `2 ^ (-1074)`.

Main statements: `units_of_lt` and `units_add_block` (how magnitudes are spaced) and `units_strictMono`
(they increase with their number).
-/

namespace DocDesk

-- Powers are the built-in ones, whatever a module imports besides.
attribute [instance (100000), default_instance 100000] instPowNat

/-- The number of finite magnitudes. -/
abbrev rankLimit : Nat := 0x7FF0000000000000

/-- There is a finite magnitude, that of zero. -/
theorem rankLimit_pos : 0 < rankLimit := by decide

/-- A double-precision number; a finite one is a sign and the number of its magnitude. -/
inductive Binary64 where
  | nan
  | infinite (negative : Bool)
  | finite (negative : Bool) (rank : Fin rankLimit)
deriving DecidableEq, Inhabited

namespace Binary64

/-- The magnitude numbered `r`, counted in the least positive magnitude. -/
def units (r : Nat) : Nat :=
  if r < 2 ^ 52 then r else (2 ^ 52 + r % 2 ^ 52) * 2 ^ (r / 2 ^ 52 - 1)

/-- How many of the least positive magnitude make one. -/
abbrev unitsPerOne : Nat := 2 ^ 1074

/-- Positive zero. -/
def zero : Binary64 := .finite false ⟨0, rankLimit_pos⟩

/-- The magnitude numbered `r` with a sign; past the last magnitude, the infinity of that sign. -/
def ofRank (negative : Bool) (r : Nat) : Binary64 :=
  if h : r < rankLimit then .finite negative ⟨r, h⟩ else .infinite negative

/-- The value as an integer count of the least positive magnitude, for a finite number. -/
def signedUnits? : Binary64 → Option Int
  | .finite negative r => some (if negative then -(units r : Int) else (units r : Int))
  | _ => none

/-- The place of a number in increasing order; both zeros have place zero and the not-a-number value
has none. -/
def order? : Binary64 → Option Int
  | .nan => none
  | .infinite negative => some (if negative then -(rankLimit : Int) else (rankLimit : Int))
  | .finite negative r => some (if negative then -(r.val : Int) else (r.val : Int))

/-- Not a number. -/
def isNaN (x : Binary64) : Bool := x.order?.isNone

/-- One of the two infinities. -/
def isInfinite : Binary64 → Bool
  | .infinite _ => true
  | _ => false

/-- Neither an infinity nor the not-a-number value. -/
def isFinite : Binary64 → Bool
  | .finite _ _ => true
  | _ => false

/-- The sign bit; the not-a-number value has none. -/
def isNegative : Binary64 → Bool
  | .nan => false
  | .infinite negative => negative
  | .finite negative _ => negative

/-- Numeric equality: the zeros are equal and the not-a-number value equals nothing. -/
def numEq (x y : Binary64) : Bool :=
  match x.order?, y.order? with
  | some a, some b => a = b
  | _, _ => false

/-- Numeric order: the not-a-number value is below and above nothing. -/
def numLt (x y : Binary64) : Bool :=
  match x.order?, y.order? with
  | some a, some b => a < b
  | _, _ => false

/-- Numeric order or equality. -/
def numLe (x y : Binary64) : Bool :=
  match x.order?, y.order? with
  | some a, some b => a ≤ b
  | _, _ => false

/-- The number with its sign turned. -/
def neg : Binary64 → Binary64
  | .nan => .nan
  | .infinite negative => .infinite (!negative)
  | .finite negative r => .finite (!negative) r

/-- The integer a finite number truncates to. -/
def truncate? : Binary64 → Option Int
  | .finite negative r =>
    let n := units r / unitsPerOne
    some (if negative then -(n : Int) else (n : Int))
  | _ => none

/-- A finite number without a fractional part. -/
def isWhole : Binary64 → Bool
  | .finite _ r => units r % unitsPerOne = 0
  | _ => false

/-! ## Spacing of the magnitudes -/

/-- The least magnitudes stand for their ranks. -/
theorem units_of_lt {r : Nat} (h : r < 2 ^ 52) : units r = r := by
  rw [units, if_pos h]

/-- In the block with number `s`, magnitudes are multiples of `2 ^ s`. -/
theorem units_add_block {m s : Nat} (h1 : 2 ^ 52 ≤ m) (h2 : m < 2 ^ 53) :
    units (s * 2 ^ 52 + m) = m * 2 ^ s := by
  have h3 : ¬ s * 2 ^ 52 + m < 2 ^ 52 := by omega
  have h4 : (s * 2 ^ 52 + m) % 2 ^ 52 = m - 2 ^ 52 := by omega
  have h5 : (s * 2 ^ 52 + m) / 2 ^ 52 - 1 = s := by omega
  have h6 : 2 ^ 52 + (m - 2 ^ 52) = m := by omega
  rw [units, if_neg h3, h4, h5, h6]

/-- The first rank is that of zero. -/
theorem units_zero : units 0 = 0 := rfl

/-- Magnitudes increase with their number, one step at a time. -/
theorem units_lt_succ (r : Nat) : units r < units (r + 1) := by
  by_cases h : r + 1 < 2 ^ 52
  · rw [units_of_lt h, units_of_lt (by omega)]; omega
  by_cases h0 : r + 1 = 2 ^ 52
  · rw [units_of_lt (by omega)]
    have := units_add_block (m := 2 ^ 52) (s := 0) (by decide) (by decide)
    simp only [Nat.zero_mul, Nat.zero_add, Nat.pow_zero, Nat.mul_one] at this
    rw [h0, this]; omega
  obtain ⟨s, m, hr, hm1, hm2⟩ : ∃ s m, r = s * 2 ^ 52 + m ∧ 2 ^ 52 ≤ m ∧ m < 2 ^ 53 :=
    ⟨r / 2 ^ 52 - 1, 2 ^ 52 + r % 2 ^ 52, by omega, by omega, by omega⟩
  subst hr
  rw [units_add_block hm1 hm2]
  by_cases hc : m + 1 < 2 ^ 53
  · rw [Nat.add_assoc, units_add_block (by omega) hc]
    exact Nat.mul_lt_mul_of_pos_right (by omega) (Nat.two_pow_pos s)
  · have hm : s * 2 ^ 52 + m + 1 = (s + 1) * 2 ^ 52 + 2 ^ 52 := by omega
    have h2 : 2 ^ 52 * 2 ^ (s + 1) = 2 ^ 53 * 2 ^ s := by rw [← Nat.pow_add, ← Nat.pow_add]; congr 1; omega
    rw [hm, units_add_block (by decide) (by decide), h2]
    exact Nat.mul_lt_mul_of_pos_right (by omega) (Nat.two_pow_pos s)

/-- A greater number has a greater magnitude. -/
theorem units_strictMono {a b : Nat} (h : a < b) : units a < units b := by
  induction b with
  | zero => omega
  | succ b ih =>
    by_cases hab : a = b
    · exact hab ▸ units_lt_succ a
    · exact Nat.lt_trans (ih (by omega)) (units_lt_succ b)

end Binary64

end DocDesk
