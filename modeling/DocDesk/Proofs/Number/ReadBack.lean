import DocDesk.Proofs.Number.Numeral
import DocDesk.Proofs.Number.Shortest

/-!
# Doubles read back from their decimals

A decimal in the interval of a magnitude is read as that magnitude, and the text of a magnitude is a
numeral with such a decimal.

Main statements: `ofDecimal_of_roundsToRank` and `exists_parts_magnitudeText`.
-/

namespace DocDesk

namespace Binary64

/-! ## From decimals to magnitudes -/

/-- The first rank beyond all doubles stands for two to the power 1024. -/
theorem units_rankLimit : units rankLimit = 2 ^ 1024 * unitsPerOne := by
  have hblock : rankLimit = 2046 * 2 ^ 52 + 2 ^ 52 := by decide
  rw [hblock, units_add_block (by decide) (by decide), ← Nat.pow_add, ← Nat.pow_add]

/-- A greater rank stands for more. -/
theorem units_mono {a b : Nat} (h : a ≤ b) : units a ≤ units b := by
  rcases Nat.eq_or_lt_of_le h with rfl | h
  · exact Nat.le_refl _
  · exact Nat.le_of_lt (units_strictMono h)

/-- A decimal that rounds to a magnitude is no zero. -/
theorem coefficient_pos {r c : Nat} {e : Int} (hr : 0 < r) (h : roundsToRank r ⟨c, e⟩ = true) :
    0 < c := by
  have hlow := (roundsToRank_mk_iff.mp h).low
  have hx : 0 < units r := units_strictMono hr
  refine Nat.pos_of_ne_zero fun hc => ?_
  rw [hc, Nat.zero_mul, Nat.mul_zero] at hlow
  have hpos : 0 < (units (r - 1) + units r) * 10 ^ (-e).toNat :=
    Nat.mul_pos (by omega) (Nat.pow_pos (by decide))
  omega

/-- Powers of ten around a number are apart. -/
theorem pow_exponent_lt {a b c : Nat} (hab : 10 ^ a ≤ b) (hbc : b < 10 ^ c) : a < c :=
  (Nat.pow_lt_pow_iff_right (by decide)).mp (Nat.lt_of_le_of_lt hab hbc)

/-- A decimal that rounds to a finite magnitude has few digits before the point. -/
theorem place_le {r c : Nat} {e : Int} (hr : 0 < r) (hlim : r < rankLimit)
    (h : roundsToRank r ⟨c, e⟩ = true) : ((natText c).length : Int) + e ≤ 310 := by
  have hhigh := (roundsToRank_mk_iff.mp h).high
  have hdigits := pow_length_natText_le (coefficient_pos hr h)
  have hlimit : units r + units (r + 1) ≤ 2 * (2 ^ 1024 * unitsPerOne) := by
    have hlt := units_strictMono hlim
    have hle := units_mono (show r + 1 ≤ rankLimit from hlim)
    rw [units_rankLimit] at hlt hle
    omega
  have hbound : (2 : Nat) ^ 1024 < 10 ^ 310 := by decide +kernel
  have hone := unitsPerOne_pos
  generalize (2 : Nat) ^ 1024 = top at hlimit hbound
  generalize unitsPerOne = one at hhigh hlimit hone
  -- the value lies below the first magnitude past the range, so its leading power of ten does
  have hvalue : c * 10 ^ e.toNat ≤ top * 10 ^ (-e).toNat := by
    refine Nat.le_of_mul_le_mul_left ?_ (Nat.mul_pos (show 0 < 2 by decide) hone)
    calc 2 * one * (c * 10 ^ e.toNat) = 2 * (c * (one * 10 ^ e.toNat)) := by
          rw [Nat.mul_assoc, Nat.mul_left_comm one]
      _ ≤ (units r + units (r + 1)) * 10 ^ (-e).toNat := hhigh
      _ ≤ 2 * (top * one) * 10 ^ (-e).toNat := Nat.mul_le_mul_right _ hlimit
      _ = 2 * one * (top * 10 ^ (-e).toNat) := by
          rw [Nat.mul_comm top, ← Nat.mul_assoc, Nat.mul_assoc]
  have hfront : 10 ^ ((natText c).length - 1 + e.toNat) ≤ top * 10 ^ (-e).toNat := by
    rw [Nat.pow_add]
    exact Nat.le_trans (Nat.mul_le_mul_right _ hdigits) hvalue
  have hback : top * 10 ^ (-e).toNat < 10 ^ (310 + (-e).toNat) := by
    rw [Nat.pow_add]
    exact Nat.mul_lt_mul_of_pos_right hbound (Nat.pow_pos (by decide))
  have hlt := pow_exponent_lt hfront hback
  omega

/-- A decimal that rounds to a magnitude other than zero has few zeros behind the point. -/
theorem le_place {r c : Nat} {e : Int} (hr : 0 < r) (h : roundsToRank r ⟨c, e⟩ = true) :
    -330 ≤ ((natText c).length : Int) + e := by
  have hlow := (roundsToRank_mk_iff.mp h).low
  have hdigits := lt_pow_length_natText c
  have hx : 0 < units r := units_strictMono hr
  have hbound : 2 * unitsPerOne ≤ 10 ^ 330 := by decide +kernel
  have hone := unitsPerOne_pos
  generalize unitsPerOne = one at hlow hone hbound
  -- the value is at least half of the least magnitude, so the power of ten above it is
  have hfront : 10 ^ (-e).toNat ≤ 2 * one * (c * 10 ^ e.toNat) :=
    calc 10 ^ (-e).toNat ≤ (units (r - 1) + units r) * 10 ^ (-e).toNat :=
          Nat.le_mul_of_pos_left _ (by omega)
      _ ≤ 2 * (c * (one * 10 ^ e.toNat)) := hlow
      _ = 2 * one * (c * 10 ^ e.toNat) := by rw [Nat.mul_assoc, Nat.mul_left_comm one]
  have hback : 2 * one * (c * 10 ^ e.toNat) < 10 ^ (330 + ((natText c).length + e.toNat)) := by
    rw [Nat.pow_add 10 330, Nat.pow_add]
    refine Nat.mul_lt_mul_of_le_of_lt hbound ?_ (by omega)
    exact Nat.mul_lt_mul_of_pos_right hdigits (Nat.pow_pos (by decide))
  have hlt := pow_exponent_lt hfront hback
  omega

/-- A decimal in the interval of a magnitude other than zero is read as this magnitude. -/
theorem ofDecimal_of_roundsToRank {r : Fin rankLimit} {d : Decimal} (hr : 0 < r.val)
    (h : roundsToRank r d = true) (negative : Bool) : ofDecimal negative d = .finite negative r := by
  obtain ⟨c, e⟩ := d
  have hc := coefficient_pos hr h
  have hhigh := place_le hr r.isLt h
  have hlow := le_place hr h
  have hrank := (roundsToRank_iff.mp h).roundRank hr (Nat.pow_pos (by decide))
  have hnotHigh : ¬ ((Nat.toDigits 10 c).length : Int) + e > 310 := Int.not_lt.mpr hhigh
  have hnotLow : ¬ ((Nat.toDigits 10 c).length : Int) + e < -330 := Int.not_lt.mpr hlow
  unfold ofDecimal
  rw [if_neg (Nat.ne_of_gt hc)]
  dsimp only
  rw [if_neg hnotHigh, if_neg hnotLow, hrank, ofRank, dif_pos r.isLt]

/-- Zeros behind a decimal do not change where it lies. -/
theorem roundsToRank_mul_pow (r c k : Nat) (e : Int) :
    roundsToRank r ⟨c * 10 ^ k, e - k⟩ = roundsToRank r ⟨c, e⟩ := by
  induction k with
  | zero => simp
  | succ k ih =>
    have hexponent : e - (k + 1 : Nat) + 1 = e - k := by omega
    rw [Nat.pow_succ, ← Nat.mul_assoc, roundsToRank_mul_ten, hexponent, ih]

/-! ## From text to decimals -/

/-- The text of a magnitude other than zero is a numeral whose decimal rounds to the magnitude. -/
theorem exists_parts_magnitudeText {r : Nat} (hr : 0 < r) :
    ∃ p : Numeral.Parts, p.text = magnitudeText r ∧ roundsToRank r p.decimal = true := by
  have hshortest := roundsToRank_shortest hr
  unfold magnitudeText
  rw [if_neg (Nat.ne_of_gt hr)]
  generalize shortest r = d at hshortest ⊢
  obtain ⟨c, e⟩ := d
  obtain ⟨p, k, htext, hdecimal⟩ := Numeral.exists_parts_decimalText (natText_ne_nil c)
    (fun _ => isDigit_of_mem_natText) ((natText c).length + e)
  have hplace : ((natText c).length : Int) + e - (natText c).length - k = e - k := by omega
  rw [ofDigitChars_natText, hplace] at hdecimal
  exact ⟨p, htext, by rw [hdecimal, roundsToRank_mul_pow, hshortest]⟩

/-- A minus sign, or nothing. -/
def signText (negative : Bool) : List Char := if negative then ['-'] else []

/-- A numeral with or without a minus sign is read as its decimal is. -/
theorem value_numeral (negative : Bool) (p : Numeral.Parts) :
    Numeral.value (signText negative ++ p.text) = ofDecimal negative p.decimal := by
  cases negative with
  | true =>
    have hdecimal := p.isDecimal_neg
    have hread := p.readUnsigned_text
    simp [signText, Numeral.value, hdecimal, ofNumeral, hread]
  | false =>
    have hdecimal := p.isDecimal_text
    have hread := p.readUnsigned_text
    obtain ⟨d, t, hd, htext⟩ := p.text_eq_cons
    rw [htext] at hdecimal hread ⊢
    have hplain : ofNumeral (d :: t) = ofDecimal false (Decimal.readUnsigned (d :: t)) := by
      unfold ofNumeral
      split
      · next h => cases h; cases hd
      · next h => cases h; cases hd
      · rfl
    simp [signText, Numeral.value, hdecimal, hplain, hread]

/-! ## Integers -/

/-- The double of an integer whose size is a magnitude. -/
theorem ofInt_of_units {r : Fin rankLimit} {i : Int} (h : i.natAbs * unitsPerOne = units r) :
    ofInt i = .finite (decide (i < 0)) r := by
  rw [ofInt, ofQuotient, h, roundRank_units, ofRank, dif_pos r.isLt]

/-- A whole number other than negative zero is the double of the integer it truncates to. -/
theorem ofInt_truncate {negative : Bool} {r : Fin rankLimit} {i : Int}
    (htruncate : (Binary64.finite negative r).truncate? = some i)
    (hwhole : (Binary64.finite negative r).isWhole = true) (hsign : r.val = 0 → negative = false) :
    ofInt i = .finite negative r ∧ i.natAbs * unitsPerOne = units r := by
  have hunits : units r / unitsPerOne * unitsPerOne = units r :=
    Nat.div_mul_cancel (Nat.dvd_of_mod_eq_zero (of_decide_eq_true hwhole))
  rw [truncate?, Option.some.injEq] at htruncate
  generalize units r / unitsPerOne = n at hunits htruncate
  have habs : i.natAbs = n := by
    rw [← htruncate]
    cases negative <;> simp
  have hi : i.natAbs * unitsPerOne = units r := habs ▸ hunits
  refine ⟨?_, hi⟩
  rw [ofInt_of_units hi]
  -- the sign of a double is told by its integer, unless that is zero
  cases negative with
  | false =>
    have hnot : ¬ i < 0 := by simp [← htruncate]
    rw [decide_eq_false hnot]
  | true =>
    have hr : 0 < r.val := Nat.pos_of_ne_zero fun h => Bool.noConfusion (hsign h)
    have hx : 0 < units r := units_strictMono hr
    have hneg : i < 0 := by
      have hn : n ≠ 0 := by
        rintro rfl
        rw [Nat.zero_mul] at hunits
        omega
      rw [if_pos rfl] at htruncate
      omega
    rw [decide_eq_true hneg]

/-- A number that is exactly that of a rank is rounded to it. -/
theorem roundsToRank_of_units {r n : Nat} (hr : 0 < r) (h : n * unitsPerOne = units r) :
    roundsToRank r ⟨n, 0⟩ = true := by
  have hself := InInterval.self hr (show 0 < 1 by decide)
  rw [Nat.mul_one] at hself
  rw [roundsToRank_mk_iff]
  simpa [h] using hself

end Binary64

end DocDesk
