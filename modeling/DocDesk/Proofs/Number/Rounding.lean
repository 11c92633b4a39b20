import DocDesk.Number.Shortest

/-!
# The interval of a magnitude

A quotient rounds to the magnitude numbered `r` if it lies between the two midpoints beside that
magnitude, the midpoints included when `r` is even.

Main statements: `InInterval.roundRank` and `roundsToRank_iff`.
-/

namespace DocDesk.Binary64

/-- How a magnitude lies below the next one: it is `m` steps of `2 ^ s`, and the next one is a step
above it. -/
structure Spaced (r s m : Nat) : Prop where
  rank : r = s * 2 ^ 52 + m
  small : m < 2 ^ 53
  full : s = 0 ∨ 2 ^ 52 ≤ m
  here : units r = m * 2 ^ s
  above : units (r + 1) = (m + 1) * 2 ^ s

/-- The last rank of a block stands for the first of the next. -/
theorem units_block_end (s : Nat) : units (s * 2 ^ 52 + 2 ^ 53) = 2 ^ 53 * 2 ^ s := by
  have hnext : s * 2 ^ 52 + 2 ^ 53 = (s + 1) * 2 ^ 52 + 2 ^ 52 := by omega
  have hdouble : 2 ^ 52 * 2 ^ (s + 1) = 2 ^ 53 * 2 ^ s := by
    rw [← Nat.pow_add, ← Nat.pow_add]
    congr 1
    omega
  rw [hnext, units_add_block (by decide) (by decide), hdouble]

/-- The steps of a block, its end included. -/
theorem units_block {s m : Nat} (hfull : s = 0 ∨ 2 ^ 52 ≤ m) (hm : m ≤ 2 ^ 53) :
    units (s * 2 ^ 52 + m) = m * 2 ^ s := by
  by_cases hend : m = 2 ^ 53
  · rw [hend, units_block_end]
  · by_cases hlow : m < 2 ^ 52
    · obtain rfl : s = 0 := by omega
      rw [Nat.zero_mul, Nat.zero_add, units_of_lt hlow, Nat.pow_zero, Nat.mul_one]
    · exact units_add_block (by omega) (by omega)

/-- Every rank has the spacing of its block. -/
theorem exists_spaced (r : Nat) : ∃ s m, Spaced r s m := by
  -- in the first two blocks the step is one
  by_cases hr : r < 2 ^ 53
  · refine ⟨0, r, by omega, hr, .inl rfl, ?_, ?_⟩
    · simpa using units_block (.inl rfl) (Nat.le_of_lt hr)
    · simpa using units_block (.inl rfl) hr
  · have hrank : r = (r / 2 ^ 52 - 1) * 2 ^ 52 + (2 ^ 52 + r % 2 ^ 52) := by omega
    have hsmall : 2 ^ 52 + r % 2 ^ 52 < 2 ^ 53 := by omega
    refine ⟨r / 2 ^ 52 - 1, 2 ^ 52 + r % 2 ^ 52, hrank, hsmall, .inr (by omega), ?_, ?_⟩
    · rw [← units_block (.inr (by omega)) (Nat.le_of_lt hsmall), ← hrank]
    · have hnext : r + 1 = (r / 2 ^ 52 - 1) * 2 ^ 52 + (2 ^ 52 + r % 2 ^ 52 + 1) := by omega
      rw [hnext, units_block (.inr (by omega)) hsmall]

/-! ## Rounding a quotient -/

/-- A quotient between two neighbouring steps of a block rounds to one of them: to the upper one
past the middle, and in the middle if the lower one is odd. -/
theorem roundRank_between {num den s m : Nat} (hden : 0 < den) (hm : m < 2 ^ 53)
    (hfull : s = 0 ∨ 2 ^ 52 ≤ m) (hlow : m * 2 ^ s * den ≤ num)
    (hhigh : num < (m + 1) * 2 ^ s * den) :
    roundRank num den = s * 2 ^ 52 + m +
      if den * 2 ^ s < 2 * (num - m * 2 ^ s * den) ∨
        (2 * (num - m * 2 ^ s * den) = den * 2 ^ s ∧ m % 2 = 1) then 1 else 0 := by
  have hpos : 0 < 2 ^ s := Nat.two_pow_pos s
  have hqlow : m * 2 ^ s ≤ num / den := (Nat.le_div_iff_mul_le hden).mpr hlow
  have hqhigh : num / den < (m + 1) * 2 ^ s := (Nat.div_lt_iff_lt_mul hden).mpr hhigh
  -- the quotient has as many binary digits as its lower neighbour, so it lies in the same block
  have hlog : Nat.log2 (num / den) - 52 = s := by
    rcases hfull with rfl | hfull
    · by_cases hz : num / den = 0
      · rw [hz]
        decide
      · have hlt : Nat.log2 (num / den) < 53 := (Nat.log2_lt hz).mpr (by omega)
        omega
    · have hge : 2 ^ (52 + s) ≤ num / den := by
        rw [Nat.pow_add]
        exact Nat.le_trans (Nat.mul_le_mul_right _ hfull) hqlow
      have hlt : num / den < 2 ^ (53 + s) := by
        rw [Nat.pow_add]
        exact Nat.lt_of_lt_of_le hqhigh (Nat.mul_le_mul_right _ hm)
      have hz : num / den ≠ 0 := Nat.ne_of_gt (Nat.lt_of_lt_of_le (Nat.two_pow_pos _) hge)
      have hge' := (Nat.le_log2 hz).mpr hge
      have hlt' := (Nat.log2_lt hz).mpr hlt
      omega
  have hcomm : ∀ k, k * (den * 2 ^ s) = k * 2 ^ s * den := by
    intro k
    rw [Nat.mul_comm den, ← Nat.mul_assoc]
  have hdiv : num / (den * 2 ^ s) = m := by
    refine Nat.div_eq_of_lt_le ?_ ?_
    · rwa [hcomm]
    · rwa [hcomm]
  have hmod : num % (den * 2 ^ s) = num - m * 2 ^ s * den := by
    rw [Nat.mod_eq_sub_mul_div, hdiv, Nat.mul_comm, hcomm]
  simp only [roundRank, hlog, hdiv, hmod, Bool.or_eq_true, Bool.and_eq_true, decide_eq_true_eq]

/-! ## The interval of a magnitude -/

/-- The quotient `num / den` lies between the midpoints beside the magnitude numbered `r`, and is none
of the two if `r` is odd. -/
structure InInterval (r num den : Nat) : Prop where
  low : (units (r - 1) + units r) * den ≤ 2 * num
  high : 2 * num ≤ (units r + units (r + 1)) * den
  strict : r % 2 = 1 →
    (units (r - 1) + units r) * den < 2 * num ∧ 2 * num < (units r + units (r + 1)) * den

/-- A number strictly between the middles to both sides is within the interval. -/
theorem InInterval.of_lt {r num den : Nat} (hlow : (units (r - 1) + units r) * den < 2 * num)
    (hhigh : 2 * num < (units r + units (r + 1)) * den) : InInterval r num den :=
  ⟨Nat.le_of_lt hlow, Nat.le_of_lt hhigh, fun _ => ⟨hlow, hhigh⟩⟩

/-- The magnitude itself lies in its interval. -/
theorem InInterval.self {r : Nat} (hr : 0 < r) {den : Nat} (hden : 0 < den) :
    InInterval r (units r * den) den := by
  have hbelow : units (r - 1) < units r := units_strictMono (by omega)
  have habove : units r < units (r + 1) := units_lt_succ r
  refine .of_lt ?_ ?_
  · rw [← Nat.mul_assoc]
    exact Nat.mul_lt_mul_of_pos_right (by omega) hden
  · rw [← Nat.mul_assoc]
    exact Nat.mul_lt_mul_of_pos_right (by omega) hden

/-- A quotient may be written with other terms. -/
theorem InInterval.scale_iff {r num den k : Nat} (hk : 0 < k) :
    InInterval r (k * num) (k * den) ↔ InInterval r num den := by
  have hleft : ∀ x, x * (k * den) = k * (x * den) := fun x => Nat.mul_left_comm x k den
  have hright : 2 * (k * num) = k * (2 * num) := Nat.mul_left_comm 2 k num
  constructor
  · rintro ⟨hlow, hhigh, hstrict⟩
    simp only [hleft, hright, Nat.mul_le_mul_left_iff hk, Nat.mul_lt_mul_left hk]
      at hlow hhigh hstrict
    exact ⟨hlow, hhigh, hstrict⟩
  · rintro ⟨hlow, hhigh, hstrict⟩
    refine ⟨?_, ?_, ?_⟩ <;>
      simpa only [hleft, hright, Nat.mul_le_mul_left_iff hk, Nat.mul_lt_mul_left hk]

/-- A quotient in the interval of a magnitude rounds to that magnitude. -/
theorem InInterval.roundRank {r num den : Nat} (h : InInterval r num den) (hr : 0 < r)
    (hden : 0 < den) : Binary64.roundRank num den = r := by
  obtain ⟨hlow, hhigh, hodd⟩ := h
  by_cases hcase : units r * den ≤ num
  · -- at the magnitude or above it: the lower of two neighbours
    obtain ⟨s, m, h⟩ := exists_spaced r
    have hrank := h.rank
    have hstep : 0 < 2 ^ s * den := Nat.mul_pos (Nat.two_pow_pos s) hden
    simp only [h.above, h.here, Nat.add_mul, Nat.one_mul] at hcase hhigh hodd
    have hnext : num < (m + 1) * 2 ^ s * den := by
      simp only [Nat.add_mul, Nat.one_mul]
      omega
    rw [roundRank_between hden h.small h.full hcase hnext, if_neg, hrank, Nat.add_zero]
    rw [Nat.mul_comm den]
    omega
  · -- below the magnitude: the upper of two neighbours
    obtain ⟨s, m, h⟩ := exists_spaced (r - 1)
    have hrank := h.rank
    have habove := h.above
    rw [Nat.sub_add_cancel hr] at habove
    have hnext : num < (m + 1) * 2 ^ s * den := habove ▸ Nat.not_le.mp hcase
    simp only [h.here, habove, Nat.add_mul, Nat.one_mul] at hcase hlow hodd
    have hprev : m * 2 ^ s * den ≤ num := by omega
    rw [roundRank_between hden h.small h.full hprev hnext, if_pos]
    · omega
    · rw [Nat.mul_comm den]
      omega

/-- The test of a decimal is whether its quotient lies in the interval. -/
theorem roundsToRank_iff {r : Nat} {d : Decimal} :
    roundsToRank r d = true ↔
      InInterval r (d.quotient unitsPerOne).1 (d.quotient unitsPerOne).2 := by
  unfold roundsToRank
  generalize d.quotient unitsPerOne = q
  obtain ⟨num, den⟩ := q
  dsimp only
  split
  · next heven =>
    rw [Bool.and_eq_true, decide_eq_true_eq, decide_eq_true_eq]
    exact ⟨fun h => ⟨h.1, h.2, by omega⟩, fun h => ⟨h.low, h.high⟩⟩
  · next hodd =>
    rw [Bool.and_eq_true, decide_eq_true_eq, decide_eq_true_eq]
    exact ⟨fun h => .of_lt h.1 h.2, fun h => h.strict (by omega)⟩

/-- A decimal is rounded to a rank exactly if it is in its interval. -/
theorem roundsToRank_mk_iff {r c : Nat} {e : Int} :
    roundsToRank r ⟨c, e⟩ = true ↔
      InInterval r (c * (unitsPerOne * 10 ^ e.toNat)) (10 ^ (-e).toNat) := by
  rw [roundsToRank_iff, Decimal.quotient, Nat.mul_assoc]

end DocDesk.Binary64
