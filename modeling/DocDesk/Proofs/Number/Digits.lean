import DocDesk.Number.Whole

/-!
# Plain digits

A numeral of ASCII digits writes the number that its digits have in base ten, and the digits of a
number read back as that number.  How long the digits of a number are is how large it is:
`length_natText_le_iff`.
-/

namespace DocDesk

namespace Decimal

/-- On ASCII digits the digit values are the distances from the digit zero. -/
theorem digitValues_of_isDigit {ds : List Char} (h : ∀ c ∈ ds, c.isDigit = true) :
    digitValues ds = ds.map fun c => c.toNat - '0'.toNat := by
  induction ds with
  | nil => rfl
  | cons c ds ih =>
    have hc : c.isDigit = true := h c List.mem_cons_self
    have hds := ih fun d hd => h d (List.mem_cons_of_mem _ hd)
    rw [digitValues] at hds ⊢
    rw [List.filterMap_cons_some (Text.digit?_ascii hc), hds, List.map_cons]

/-- A numeral of ASCII digits has its value in base ten. -/
theorem natOfDigits_digitValues {ds : List Char} (h : ∀ c ∈ ds, c.isDigit = true) :
    natOfDigits (digitValues ds) = Nat.ofDigitChars 10 ds 0 := by
  rw [digitValues_of_isDigit h, natOfDigits, List.foldl_map, Nat.ofDigitChars_eq_foldl]

end Decimal

/-- A natural number has digits only. -/
theorem isDigit_of_mem_natText {n : Nat} {c : Char} (h : c ∈ natText n) : c.isDigit = true :=
  Nat.isDigit_of_mem_toDigits (by decide) (by decide) h

/-- It has one digit at least. -/
theorem natText_ne_nil (n : Nat) : natText n ≠ [] := Nat.toDigits_ne_nil

/-- It is read from its digits. -/
theorem ofDigitChars_natText (n : Nat) : Nat.ofDigitChars 10 (natText n) 0 = n :=
  Nat.ofDigitChars_ten_toDigits

/-- Numbers with the same digits are the same. -/
theorem natText_inj {m n : Nat} (h : natText m = natText n) : m = n := by
  rw [← ofDigitChars_natText m, h, ofDigitChars_natText]

/-- A number has at most so many digits exactly if it is less than that power of ten. -/
theorem length_natText_le_iff {n k : Nat} (hk : 0 < k) : (natText n).length ≤ k ↔ n < 10 ^ k :=
  Nat.length_toDigits_le_iff (by decide) hk

/-- A number is less than the power of ten with as many zeros as it has digits. -/
theorem lt_pow_length_natText (n : Nat) : n < 10 ^ (natText n).length :=
  (length_natText_le_iff Nat.length_toDigits_pos).mp (Nat.le_refl _)

/-- A number is no less than the power of ten with as many digits. -/
theorem pow_length_natText_le {n : Nat} (hn : 0 < n) : 10 ^ ((natText n).length - 1) ≤ n := by
  by_cases hone : (natText n).length - 1 = 0
  · rwa [hone, Nat.pow_zero]
  · refine Nat.le_of_not_lt fun hlt => ?_
    have hshort := (length_natText_le_iff (Nat.pos_of_ne_zero hone)).mpr hlt
    omega

/-- The number that ASCII digits write is below the power of ten for their count. -/
theorem ofDigitChars_lt {ds : List Char} (h : ∀ c ∈ ds, c.isDigit = true) :
    Nat.ofDigitChars 10 ds 0 < 10 ^ ds.length := by
  induction ds with
  | nil => simp
  | cons c ds ih =>
    have hds := ih fun d hd => h d (List.mem_cons_of_mem _ hd)
    have hc : c.isDigit = true := h c List.mem_cons_self
    have hc9 : c.toNat - '0'.toNat ≤ 9 := by
      simp only [Char.isDigit, Bool.and_eq_true, decide_eq_true_eq] at hc
      have h57 : c.toNat ≤ 57 := hc.2
      have h48 : '0'.toNat = 48 := rfl
      omega
    -- the first digit counts for nine powers at most, the others together for less than one
    rw [Nat.ofDigitChars_cons, Nat.ofDigitChars_eq_ofDigitChars_zero, List.length_cons, Nat.pow_succ]
    calc 10 ^ ds.length * (10 * 0 + (c.toNat - '0'.toNat)) + Nat.ofDigitChars 10 ds 0
        < 10 ^ ds.length * 9 + 10 ^ ds.length := by
          refine Nat.add_lt_add_of_le_of_lt (Nat.mul_le_mul_left _ ?_) hds
          omega
      _ = 10 ^ ds.length * 10 := by omega

/-- ASCII digits within the limit are read as their number in base ten. -/
theorem readDigits_eq_ok {ds : List Char} (h : ∀ c ∈ ds, c.isDigit = true)
    (hlen : ds.length ≤ digitLimit) : readDigits ds = .ok (Nat.ofDigitChars 10 ds 0) := by
  rw [readDigits, if_neg (by omega), Decimal.natOfDigits_digitValues h]

/-- Digits beyond the limit are refused with their count. -/
theorem readDigits_eq_error_iff {cs : List Char} {f : DigitFault} :
    readDigits cs = .error f ↔ digitLimit < cs.length ∧ f = .unreadable cs.length := by
  rw [readDigits]
  split
  · next h => simp [h, eq_comm]
  · next h => simp [h]

/-- A text beyond the limit of digits is not empty. -/
theorem ne_nil_of_digitLimit_lt {cs : List Char} (h : digitLimit < cs.length) : cs ≠ [] := by
  rintro rfl
  exact absurd h (by decide)

/-! ## Numbers whose digits can be read -/

/-- The first number with too many digits to be read. -/
@[irreducible] def indexLimit : Nat := 10 ^ digitLimit

/-- An index is within its limit exactly if its digits are. -/
theorem lt_indexLimit_iff {n : Nat} : n < indexLimit ↔ (natText n).length ≤ digitLimit := by
  unfold indexLimit
  exact (length_natText_le_iff (by decide)).symm

/-- A numeral within the limit writes a number below the first one past it. -/
theorem ofDigitChars_lt_indexLimit {ds : List Char} (h : ∀ c ∈ ds, c.isDigit = true)
    (hlen : ds.length ≤ digitLimit) : Nat.ofDigitChars 10 ds 0 < indexLimit := by
  unfold indexLimit
  calc Nat.ofDigitChars 10 ds 0 < 10 ^ ds.length := ofDigitChars_lt h
    _ ≤ 10 ^ digitLimit := Nat.pow_le_pow_right (by decide) hlen

end DocDesk
