import DocDesk.Proofs.Number.Digits
import DocDesk.Proofs.Number.Rounding

/-!
# The shortest decimal of a magnitude

The search for the shortest decimal never comes back empty: on the grid of seventeen digits one of the
two neighbours of a magnitude is always nearer to it than the midpoints are.

Main statement: `roundsToRank_shortest`.
-/

namespace DocDesk.Binary64

/-! ## Grids and gaps -/

/-- A magnitude is at most `2 ^ 52` times the distance of its neighbours. -/
theorem units_le_gap {r : Nat} (hr : 0 < r) :
    units r + 2 ^ 52 * units (r - 1) ≤ 2 ^ 52 * units (r + 1) := by
  obtain ⟨s, m, h⟩ := exists_spaced r
  obtain ⟨s', m', h'⟩ := exists_spaced (r - 1)
  -- it is at most `2 ^ 53` times the step above it and at most `2 ^ 53` times the step below it
  have hm : m * 2 ^ s ≤ 2 ^ 53 * 2 ^ s := Nat.mul_le_mul_right _ (Nat.le_of_lt h.small)
  have hm' : (m' + 1) * 2 ^ s' ≤ 2 ^ 53 * 2 ^ s' := Nat.mul_le_mul_right _ h'.small
  have hhere := h.here
  have habove := h.above
  have hbelow := h'.here
  have hhere' := h'.above
  rw [Nat.sub_add_cancel hr] at hhere'
  rw [Nat.succ_mul] at habove hhere' hm'
  omega

/-- On the grid of `n + 1` digits a quotient is at least `10 ^ n` steps. -/
theorem grid_steps {one x len k n : Nat} (hlen : 0 < len) (h : 10 ^ (len - 1) * one ≤ x * 10 ^ k) :
    one * 10 ^ ((len : Int) - k - (n + 1 : Nat)).toNat * 10 ^ n ≤
      x * 10 ^ (-((len : Int) - k - (n + 1 : Nat))).toNat := by
  have hten : ∀ j, 0 < 10 ^ j := fun j => Nat.pow_pos (by decide)
  -- the power of ten stands on the left or on the right, by the sign of the exponent
  by_cases hcase : k + n + 1 ≤ len
  · have hup : ((len : Int) - k - (n + 1 : Nat)).toNat = len - (k + n + 1) := by omega
    have hdown : (-((len : Int) - k - (n + 1 : Nat))).toNat = 0 := by omega
    have hsum : len - (k + n + 1) + (n + k) = len - 1 := by omega
    rw [hup, hdown, Nat.pow_zero, Nat.mul_one]
    refine Nat.le_of_mul_le_mul_right ?_ (hten k)
    rwa [Nat.mul_assoc, Nat.mul_assoc, ← Nat.pow_add, ← Nat.pow_add, hsum, Nat.mul_comm one]
  · have hup : ((len : Int) - k - (n + 1 : Nat)).toNat = 0 := by omega
    have hdown : (-((len : Int) - k - (n + 1 : Nat))).toNat = k + n + 1 - len := by omega
    have hsum : k + n + 1 - len + (len - 1) = k + n := by omega
    rw [hup, hdown, Nat.pow_zero, Nat.mul_one]
    refine Nat.le_of_mul_le_mul_right ?_ (hten (len - 1))
    rw [Nat.mul_assoc x, ← Nat.pow_add, hsum, Nat.pow_add, ← Nat.mul_assoc, Nat.mul_right_comm]
    rw [Nat.mul_comm one]
    exact Nat.mul_le_mul_right _ h

/-- One stands for some units. -/
theorem unitsPerOne_pos : 0 < unitsPerOne := Nat.two_pow_pos 1074

/-- It stands for no more than a power of ten. -/
theorem unitsPerOne_le : unitsPerOne ≤ 10 ^ 400 :=
  calc 2 ^ 1074 ≤ 2 ^ (3 * 400) := Nat.pow_le_pow_right (by decide) (by decide)
    _ = (2 ^ 3) ^ 400 := Nat.pow_mul _ _ _
    _ ≤ 10 ^ 400 := Nat.pow_le_pow_left (by decide) 400

/-- The digits of a quotient of `x * 10 ^ k` and `one` say how many steps of a grid it has. -/
theorem grid_steps_of_digits {one x k : Nat} (hpos : 0 < one) (hle : one ≤ x * 10 ^ k) (n : Nat) :
    one * 10 ^ (((natText (x * 10 ^ k / one)).length : Int) - k - (n + 1 : Nat)).toNat * 10 ^ n ≤
      x * 10 ^ (-(((natText (x * 10 ^ k / one)).length : Int) - k - (n + 1 : Nat))).toNat := by
  have hlarge : 0 < x * 10 ^ k / one := Nat.div_pos hle hpos
  have hlow := pow_length_natText_le hlarge
  exact grid_steps Nat.length_toDigits_pos ((Nat.le_div_iff_mul_le hpos).mp hlow)

/-- On the grid of `n + 1` digits at its point place a magnitude is at least `10 ^ n` steps. -/
theorem pointPlace_grid {r : Nat} (hr : 0 < r) (n : Nat) :
    unitsPerOne * 10 ^ (pointPlace r - (n + 1 : Nat)).toNat * 10 ^ n ≤
      units r * 10 ^ (-(pointPlace r - (n + 1 : Nat))).toNat := by
  have hx : 0 < units r := units_strictMono hr
  refine grid_steps_of_digits unitsPerOne_pos ?_ n
  exact Nat.le_trans unitsPerOne_le (Nat.le_mul_of_pos_left _ hx)

/-! ## The search -/

/-- What the search finds on a grid rounds to the magnitude. -/
theorem roundsToRank_of_nearestOfDigits? {r n : Nat} {d : Decimal}
    (h : nearestOfDigits? r n = some d) : roundsToRank r d = true := by
  unfold nearestOfDigits? at h
  dsimp only at h
  split at h
  · next hbelow habove =>
    rw [← Option.some.inj h]
    split
    · exact hbelow
    · exact habove
  · next hbelow _ => rw [← Option.some.inj h, hbelow]
  · next _ habove => rw [← Option.some.inj h, habove]
  · cases h

/-- On a grid of at least `10 ^ 16` steps one of the two neighbours of a magnitude lies in its
interval. -/
theorem neighbour_inInterval {r den step : Nat} (hr : 0 < r) (hstep : 0 < step)
    (hfine : step * 10 ^ 16 ≤ units r * den) :
    InInterval r (units r * den / step * step) den ∨
      InInterval r ((units r * den / step + 1) * step) den := by
  have hbelow : units (r - 1) < units r := units_strictMono (by omega)
  have habove : units r < units (r + 1) := units_lt_succ r
  have hden : 0 < den := by
    refine Nat.pos_of_ne_zero fun hzero => ?_
    rw [hzero] at hfine
    omega
  have hfloor : units r * den / step * step ≤ units r * den := Nat.div_mul_le_self _ _
  have hceil : units r * den < (units r * den / step + 1) * step  := by
    rw [Nat.mul_comm _ step]
    exact Nat.lt_mul_div_succ _ hstep
  have hgap := Nat.mul_le_mul_right den (units_le_gap hr)
  have hlow := Nat.mul_lt_mul_of_pos_right hbelow hden
  have hhigh := Nat.mul_lt_mul_of_pos_right habove hden
  rw [Nat.add_mul, Nat.mul_assoc, Nat.mul_assoc] at hgap
  by_cases hcase : (units (r - 1) + units r) * den < 2 * (units r * den / step * step)
  · refine .inl (.of_lt hcase ?_)
    rw [Nat.add_mul]
    omega
  · -- the lower neighbour is past the lower midpoint, so the upper one is within the upper midpoint
    rw [Nat.add_mul, Nat.one_mul] at hceil
    rw [Nat.add_mul] at hcase
    refine .inr (.of_lt ?_ ?_)
    · rw [Nat.add_mul, Nat.add_mul, Nat.one_mul]
      omega
    · rw [Nat.add_mul, Nat.add_mul, Nat.one_mul]
      omega

/-- The grid of seventeen digits is fine enough for every magnitude. -/
theorem nearestOfDigits?_ne_none {r : Nat} (hr : 0 < r) : nearestOfDigits? r 17 ≠ none := by
  have hfine := pointPlace_grid hr 16
  have hstep : 0 < unitsPerOne * 10 ^ (pointPlace r - (17 : Nat)).toNat :=
    Nat.mul_pos unitsPerOne_pos (Nat.pow_pos (by decide))
  have hneighbour := neighbour_inInterval hr hstep hfine
  intro hnone
  unfold nearestOfDigits? at hnone
  dsimp only at hnone
  split at hnone
  · cases hnone
  · cases hnone
  · cases hnone
  · next hbelow habove =>
    rcases hneighbour with h | h
    · have hin := roundsToRank_mk_iff.mpr h
      rw [hbelow] at hin
      cases hin
    · have hin := roundsToRank_mk_iff.mpr h
      rw [habove] at hin
      cases hin

/-! ## Trailing zeros -/

/-- A factor of ten may stand in the coefficient or in the exponent. -/
theorem roundsToRank_mul_ten (r c : Nat) (e : Int) :
    roundsToRank r ⟨c * 10, e⟩ = roundsToRank r ⟨c, e + 1⟩ := by
  rw [Bool.eq_iff_iff, roundsToRank_mk_iff, roundsToRank_mk_iff]
  by_cases he : 0 ≤ e
  · have hup : (e + 1).toNat = e.toNat + 1 := by omega
    have hdown : (-(e + 1)).toNat = (-e).toNat := by omega
    rw [hup, hdown, Nat.pow_succ, Nat.mul_assoc c, Nat.mul_comm 10, Nat.mul_assoc]
  · have hup : (e + 1).toNat = e.toNat := by omega
    have hdown : (-e).toNat = (-(e + 1)).toNat + 1 := by omega
    rw [hup, hdown, Nat.pow_succ, Nat.mul_comm c, Nat.mul_assoc 10, Nat.mul_comm _ 10]
    exact InInterval.scale_iff (by decide)

/-- Taking trailing zeros off a decimal does not change its value. -/
theorem roundsToRank_trim (r n : Nat) (d : Decimal) :
    roundsToRank r (d.trim n) = roundsToRank r d := by
  fun_induction Decimal.trim n d with
  | case1 d => rfl
  | case2 n d h ih =>
    rw [ih, ← roundsToRank_mul_ten, Nat.div_mul_cancel (Nat.dvd_of_mod_eq_zero h.2)]
  | case3 n d h => rfl

/-- The shortest decimal of a magnitude rounds to it. -/
theorem roundsToRank_shortest {r : Nat} (hr : 0 < r) : roundsToRank r (shortest r) = true := by
  unfold shortest
  rw [if_neg (Nat.ne_of_gt hr)]
  split
  · next d hd =>
    obtain ⟨n, -, hn⟩ := List.exists_of_findSome?_eq_some hd
    rw [roundsToRank_trim]
    exact roundsToRank_of_nearestOfDigits? hn
  · next hnone =>
    rw [List.findSome?_eq_none_iff] at hnone
    exact absurd (hnone 17 (by decide)) (nearestOfDigits?_ne_none hr)

end DocDesk.Binary64
