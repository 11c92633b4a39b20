import DocDesk.Number.Binary64

/-!
# Rounding to a double

Every operation on doubles is its exact result rounded to the nearest magnitude, a tie going to the
magnitude with the even number.  Exact results are quotients of naturals counted in the least
positive magnitude, so no fraction type is needed.

Main statement: `roundRank_units` (a magnitude rounds to its own number).
-/

namespace DocDesk.Binary64

/-- The number of the magnitude nearest to `num / den` of the least magnitude, ties to even. -/
def roundRank (num den : Nat) : Nat :=
  let s := Nat.log2 (num / den) - 52
  let d := den * 2 ^ s
  let m := num / d
  let twice := 2 * (num % d)
  s * 2 ^ 52 + m + if d < twice || (twice = d && m % 2 = 1) then 1 else 0

/-- The double nearest to the quotient `num / den`, with a sign. -/
def ofQuotient (negative : Bool) (num den : Nat) : Binary64 :=
  ofRank negative (roundRank (num * unitsPerOne) den)

/-- The double nearest to an integer; an infinity if the integer is out of range. -/
def ofInt (i : Int) : Binary64 := ofQuotient (i < 0) i.natAbs 1

/-- The double nearest to an integer, if the integer is in range. -/
def ofInt? (i : Int) : Option Binary64 :=
  let x := ofInt i
  if x.isFinite then some x else none

/-- The double nearest to a signed count of the least magnitude. -/
def ofSignedUnits (n : Int) : Binary64 := ofRank (n < 0) (roundRank n.natAbs 1)

/-! ## Arithmetic -/

/-- Sum, rounded. -/
def add : Binary64 → Binary64 → Binary64
  | .nan, _ => .nan
  | _, .nan => .nan
  | .infinite a, .infinite b => if a = b then .infinite a else .nan
  | .infinite a, _ => .infinite a
  | _, .infinite b => .infinite b
  | .finite a r, .finite b s =>
    let x : Int := if a then -(units r : Int) else units r
    let y : Int := if b then -(units s : Int) else units s
    if x + y = 0 then .finite (a && b) ⟨0, rankLimit_pos⟩ else ofSignedUnits (x + y)

/-- Product, rounded. -/
def mul : Binary64 → Binary64 → Binary64
  | .nan, _ => .nan
  | _, .nan => .nan
  | .infinite a, .infinite b => .infinite (a != b)
  | .infinite a, .finite b s => if s.val = 0 then .nan else .infinite (a != b)
  | .finite a r, .infinite b => if r.val = 0 then .nan else .infinite (a != b)
  | .finite a r, .finite b s => ofRank (a != b) (roundRank (units r * units s) unitsPerOne)

/-- Quotient, rounded; a zero divisor has no quotient. -/
def div? : Binary64 → Binary64 → Option Binary64
  | x, .finite b s =>
    if s.val = 0 then none
    else some (match x with
      | .nan => .nan
      | .infinite a => .infinite (a != b)
      | .finite a r => ofRank (a != b) (roundRank (units r * unitsPerOne) (units s)))
  | .nan, _ => some .nan
  | _, .nan => some .nan
  | .infinite _, .infinite _ => some .nan
  | .finite a _, .infinite b => some (.finite (a != b) ⟨0, rankLimit_pos⟩)

/-! ## Comparing with integers -/

/-- An integer against a double, exactly; none for the not-a-number value. -/
def compareInt? (i : Int) : Binary64 → Option Ordering
  | .nan => none
  | .infinite negative => some (if negative then .gt else .lt)
  | .finite negative r =>
    some (compare (i * (unitsPerOne : Int)) (if negative then -(units r : Int) else (units r : Int)))

/-! ## Magnitudes round to themselves -/

/-- A small number of units is the rank of itself. -/
theorem roundRank_of_lt {n : Nat} (h : n < 2 ^ 53) : roundRank n 1 = n := by
  have h1 : Nat.log2 (n / 1) - 52 = 0 := by
    rw [Nat.div_one]
    by_cases hn : n = 0
    · subst hn; decide
    · have := (Nat.log2_lt hn).2 h; omega
  simp only [roundRank, h1]
  simp [Nat.mod_one]

/-- A multiple of `2 ^ s` with a full significand rounds to its place in block `s`. -/
theorem roundRank_block {m s : Nat} (h1 : 2 ^ 52 ≤ m) (h2 : m < 2 ^ 53) :
    roundRank (m * 2 ^ s) 1 = s * 2 ^ 52 + m := by
  have hp : 0 < 2 ^ s := Nat.two_pow_pos s
  have hlog : Nat.log2 (m * 2 ^ s / 1) - 52 = s := by
    rw [Nat.div_one]
    have hne : m * 2 ^ s ≠ 0 := by
      have : 0 < m := Nat.lt_of_lt_of_le (by decide) h1
      exact Nat.ne_of_gt (Nat.mul_pos this hp)
    have hlo : 52 + s ≤ Nat.log2 (m * 2 ^ s) := by
      rw [Nat.le_log2 hne, Nat.pow_add]
      exact Nat.mul_le_mul_right _ h1
    have hhi : Nat.log2 (m * 2 ^ s) < 53 + s := by
      rw [Nat.log2_lt hne, Nat.pow_add]
      exact Nat.mul_lt_mul_of_pos_right h2 hp
    omega
  simp only [roundRank, hlog, Nat.one_mul, Nat.mul_div_cancel m hp, Nat.mul_mod_left]
  simp [Nat.ne_of_lt hp]

/-- A magnitude rounds to its own number. -/
theorem roundRank_units (r : Nat) : roundRank (units r) 1 = r := by
  by_cases h : r < 2 ^ 52
  · rw [units_of_lt h]; exact roundRank_of_lt (by omega)
  · obtain ⟨s, m, hr, hm1, hm2⟩ : ∃ s m, r = s * 2 ^ 52 + m ∧ 2 ^ 52 ≤ m ∧ m < 2 ^ 53 :=
      ⟨r / 2 ^ 52 - 1, 2 ^ 52 + r % 2 ^ 52, by omega, by omega, by omega⟩
    subst hr
    rw [units_add_block hm1 hm2, roundRank_block hm1 hm2]

end DocDesk.Binary64
