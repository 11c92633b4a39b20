import DocDesk.Proofs.Number.ReadBack

/-!
# Number literals read back from their text

The text of a number is read as that number again, negative zero apart, and a text that counts as an
integer or a double is followed by its own number text with the same count.

Main statements: `value_numberText`, `numberLiteral?_numberText_int` and
`numberLiteral?_numberText_float`.
-/

namespace DocDesk

namespace Json

open Binary64

/-- The text of a number other than zero is a numeral whose decimal rounds to its magnitude. -/
theorem exists_parts_numberText (negative : Bool) {r : Fin rankLimit} (hr : 0 < r.val) :
    ∃ p : Numeral.Parts, numberText (.finite negative r) = signText negative ++ p.text ∧
      roundsToRank r p.decimal = true := by
  obtain ⟨p, htext, hp⟩ := exists_parts_magnitudeText hr
  have hlong : (Binary64.finite negative r).textWith "nan" "inf" = signText negative ++ p.text := by
    rw [textWith, signText, htext]
  unfold numberText
  dsimp only
  split
  · next i htruncate =>
    split
    · next hshort =>
      -- a short whole number is written by its digits alone
      rw [Bool.and_eq_true] at hshort
      obtain ⟨hint, hunits⟩ := ofInt_truncate htruncate hshort.1 (by omega)
      rw [ofInt_of_units hunits, Binary64.finite.injEq] at hint
      refine ⟨Numeral.ofNat i.natAbs, ?_, ?_⟩
      · rw [intText, signText, Numeral.text_ofNat, ← hint.1]
        simp
      · rw [Numeral.decimal_ofNat]
        exact roundsToRank_of_units hr hunits
    · exact ⟨p, hlong, hp⟩
  · exact ⟨p, hlong, hp⟩

/-! ### Zero -/

/-- Zero is whole, whatever its sign. -/
theorem isWhole_zero (negative : Bool) :
    (Binary64.finite negative ⟨0, rankLimit_pos⟩).isWhole = true := by
  rw [isWhole, units_zero, Nat.zero_mod, decide_eq_true rfl]

/-- It is cut to zero. -/
theorem truncate?_zero (negative : Bool) :
    (Binary64.finite negative ⟨0, rankLimit_pos⟩).truncate? = some 0 := by
  rw [truncate?, units_zero, Nat.zero_div]
  cases negative <;> rfl

/-- The double of zero is zero. -/
theorem ofInt_zero : ofInt 0 = .zero := by
  have hrank : roundRank ((0 : Int).natAbs * unitsPerOne) 1 = 0 := by
    rw [Int.natAbs_zero, Nat.zero_mul, roundRank_of_lt (Nat.two_pow_pos 53)]
  rw [ofInt, ofQuotient, hrank]
  rfl

/-- Zero is written without its sign. -/
theorem numberText_zero (negative : Bool) {r : Fin rankLimit} (hr : r.val = 0) :
    numberText (.finite negative r) = ['0'] := by
  obtain rfl : r = ⟨0, rankLimit_pos⟩ := Fin.ext hr
  rw [numberText, truncate?_zero, isWhole_zero]
  rfl

/-- The digit zero is zero. -/
theorem value_digitZero : Numeral.value ['0'] = .zero :=
  value_numeral false (Numeral.ofNat 0)

/-! ### Every number -/

/-- The text of a number other than negative zero is read as the number. -/
theorem value_numberText {x : Binary64} (hnan : x ≠ .nan)
    (hzero : x ≠ .finite true ⟨0, by decide⟩) : Numeral.value (numberText x) = x := by
  cases x with
  | nan => exact absurd rfl hnan
  | infinite negative => cases negative <;> rfl
  | finite negative r =>
    by_cases hr : r.val = 0
    · obtain rfl : r = ⟨0, by decide⟩ := Fin.ext hr
      cases negative with
      | true => exact absurd rfl hzero
      | false => rw [numberText_zero false rfl, value_digitZero, zero]
    · have hpos : 0 < r.val := Nat.pos_of_ne_zero hr
      obtain ⟨p, htext, hp⟩ := exists_parts_numberText negative hpos
      rw [htext, value_numeral, ofDecimal_of_roundsToRank hpos hp]

/-! ## Number literals -/

/-- A letter, a digit, a point or a sign. -/
def isNumberChar (c : Char) : Bool := c.isAlphanum || c = '.' || c = '-' || c = '+'

/-- A digit may stand in a number. -/
theorem isNumberChar_of_isDigit {c : Char} (h : c.isDigit = true) : isNumberChar c = true := by
  simp [isNumberChar, Char.isAlphanum, h]

/-- Number text is letters, digits, points and signs. -/
theorem isNumberChar_of_mem {x : Binary64} {c : Char} (h : c ∈ numberText x) :
    isNumberChar c = true := by
  cases x with
  | nan =>
    have hall : (numberText .nan).all isNumberChar = true := by decide
    exact List.all_eq_true.mp hall c h
  | infinite negative =>
    have hall : (numberText (.infinite negative)).all isNumberChar = true := by
      cases negative <;> decide
    exact List.all_eq_true.mp hall c h
  | finite negative r =>
    by_cases hr : r.val = 0
    · rw [numberText_zero negative hr] at h
      rw [List.mem_singleton.mp h]
      decide
    · obtain ⟨p, htext, -⟩ := exists_parts_numberText negative (Nat.pos_of_ne_zero hr)
      rw [htext, signText, List.mem_append] at h
      rcases h with h | h
      · split at h
        · rw [List.mem_singleton.mp h]
          decide
        · cases h
      · rcases p.mem_text h with hc | hc
        · exact isNumberChar_of_isDigit hc
        · simp only [List.mem_cons, List.not_mem_nil, or_false] at hc
          rcases hc with rfl | rfl | rfl | rfl <;> decide

/-- A number has a text. -/
theorem numberText_ne_nil (x : Binary64) : numberText x ≠ [] := by
  cases x with
  | nan => decide
  | infinite negative => cases negative <;> decide
  | finite negative r =>
    by_cases hr : r.val = 0
    · rw [numberText_zero negative hr]
      decide
    · obtain ⟨p, htext, -⟩ := exists_parts_numberText negative (Nat.pos_of_ne_zero hr)
      obtain ⟨d, t, -, hp⟩ := p.text_eq_cons
      rw [htext, hp]
      simp

/-- A letter, a digit, a point or a sign is no blank. -/
theorem isBlank_of_isNumberChar {c : Char} (h : isNumberChar c = true) : Text.isBlank c = false := by
  simp only [isNumberChar, Bool.or_eq_true, decide_eq_true_eq] at h
  rcases h with ((h | rfl) | rfl) | rfl
  · have hcode : (decide (65 ≤ c.val ∧ c.val ≤ 90) || 97 ≤ c.val && c.val ≤ 122 ||
        48 ≤ c.val && c.val ≤ 57) = true := h
    simp only [Bool.or_eq_true, Bool.and_eq_true, decide_eq_true_eq] at hcode
    have hrange : 48 ≤ c.toNat ∧ c.toNat ≤ 122 := by
      rcases hcode with (⟨hlow, hhigh⟩ | ⟨hlow, hhigh⟩) | ⟨hlow, hhigh⟩
      · exact ⟨Nat.le_trans (by decide) hlow, Nat.le_trans hhigh (by decide)⟩
      · exact ⟨Nat.le_trans (by decide) hlow, hhigh⟩
      · exact ⟨hlow, Nat.le_trans hhigh (by decide)⟩
    simp [Text.isBlank]
    omega
  · decide
  · decide
  · decide

/-- A text of letters, digits, points and signs has no blank at its ends. -/
theorem trimmed_of_isNumberChar {cs : List Char} (h : ∀ c ∈ cs, isNumberChar c = true) :
    Text.Trimmed cs := by
  constructor
  · intro c hc
    exact isBlank_of_isNumberChar (h c (List.mem_of_mem_head? hc))
  · intro c hc
    exact isBlank_of_isNumberChar (h c (List.mem_of_getLast? hc))

/-- The literal that a number counts as. -/
def ofDouble? (x : Binary64) : Option Json :=
  if x.isNaN then none
  else match x.truncate? with
    | some n => if x.isWhole then some (.int n) else some (.float x)
    | none => some (.float x)

/-- A text that is not blank is the literal of its double. -/
theorem numberLiteral?_eq (s : String) :
    numberLiteral? s = if Text.isBlankText s then none else ofDouble? (textNumber s) := rfl

/-- The text of a number has no blanks around it. -/
theorem strip_numberText (x : Binary64) :
    Text.strip (String.ofList (numberText x)).toList = numberText x := by
  rw [String.toList_ofList,
    Text.strip_of_trimmed (trimmed_of_isNumberChar fun _ => isNumberChar_of_mem)]

/-- It is read as a numeral. -/
theorem textNumber_numberText (x : Binary64) :
    textNumber (String.ofList (numberText x)) = Numeral.value (numberText x) := by
  rw [textNumber, strip_numberText]

/-- The text of a number other than negative zero is the literal of this number. -/
theorem numberLiteral?_text {x : Binary64} (hnan : x ≠ .nan)
    (hzero : x ≠ .finite true ⟨0, by decide⟩) :
    numberLiteral? (String.ofList (numberText x)) = ofDouble? x := by
  have hblank : Text.isBlankText (String.ofList (numberText x)) = false := by
    rw [Text.isBlankText, strip_numberText]
    exact List.isEmpty_eq_false_iff.mpr (numberText_ne_nil x)
  rw [numberLiteral?_eq, hblank, if_neg Bool.false_ne_true, textNumber_numberText]
  rw [value_numberText hnan hzero]

/-- A literal is that of a double. -/
theorem numberLiteral?_eq_ofDouble? {s : String} {v : Json} (h : numberLiteral? s = some v) :
    ∃ x, ofDouble? x = some v := by
  rw [numberLiteral?_eq] at h
  split at h
  · cases h
  · exact ⟨_, h⟩

/-- A whole double is an integer literal. -/
theorem ofDouble?_of_isWhole {x : Binary64} {i : Int} (hwhole : x.isWhole = true)
    (htruncate : x.truncate? = some i) : ofDouble? x = some (.int i) := by
  cases x with
  | nan => cases hwhole
  | infinite negative => cases hwhole
  | finite negative r =>
    have hnan : ¬ (Binary64.finite negative r).isNaN = true := Bool.false_ne_true
    rw [ofDouble?, htruncate, if_neg hnan]
    dsimp only
    rw [if_pos hwhole]

/-- Nothing else is. -/
theorem ofDouble?_eq_int {x : Binary64} {i : Int} (h : ofDouble? x = some (.int i)) :
    x.isWhole = true ∧ x.truncate? = some i := by
  unfold ofDouble? at h
  split at h
  · cases h
  · split at h
    · next n htruncate =>
      split at h
      · next hwhole => cases h; exact ⟨hwhole, htruncate⟩
      · cases h
    · cases h

/-- A literal that is a double is that double, a number, and not whole. -/
theorem ofDouble?_eq_float {x y : Binary64} (h : ofDouble? y = some (.float x)) :
    y = x ∧ y ≠ .nan ∧ y.isWhole = false := by
  have hnan : y ≠ .nan := by
    rintro rfl
    cases h
  have hwhole : y.isWhole = false := by
    refine Bool.eq_false_iff.mpr fun hwhole => ?_
    cases y with
    | nan => cases hwhole
    | infinite negative => cases hwhole
    | finite negative r =>
      rw [ofDouble?_of_isWhole hwhole rfl] at h
      cases h
  unfold ofDouble? at h
  split at h
  · cases h
  · split at h
    · rw [hwhole, if_neg Bool.false_ne_true] at h
      cases h
      exact ⟨rfl, hnan, hwhole⟩
    · cases h
      exact ⟨rfl, hnan, hwhole⟩

/-- A literal that is no integer reads back from its text. -/
theorem numberLiteral?_numberText_float {s : String} {x : Binary64}
    (h : numberLiteral? s = some (.float x)) :
    numberLiteral? (String.ofList (numberText x)) = some (.float x) := by
  obtain ⟨y, hy⟩ := numberLiteral?_eq_ofDouble? h
  obtain ⟨rfl, hnan, hwhole⟩ := ofDouble?_eq_float hy
  have hzero : y ≠ .finite true ⟨0, by decide⟩ := by
    rintro rfl
    rw [isWhole_zero] at hwhole
    cases hwhole
  rw [numberLiteral?_text hnan hzero, hy]

/-- An integer literal is the double that counts as it, unless that is negative zero. -/
theorem ofInt_of_ofDouble? {x : Binary64} {i : Int} (h : ofDouble? x = some (.int i)) :
    (ofInt i = x ∧ x ≠ .nan ∧ x ≠ .finite true ⟨0, by decide⟩) ∨
      i = 0 ∧ x = .finite true ⟨0, by decide⟩ := by
  obtain ⟨hwhole, htruncate⟩ := ofDouble?_eq_int h
  cases x with
  | nan => cases hwhole
  | infinite negative => cases hwhole
  | finite negative r =>
    by_cases hzero : Binary64.finite negative r = .finite true ⟨0, by decide⟩
    · rw [hzero, truncate?_zero, Option.some.injEq] at htruncate
      exact .inr ⟨htruncate.symm, hzero⟩
    · refine .inl ⟨(ofInt_truncate htruncate hwhole fun hr => ?_).1, by simp, hzero⟩
      -- the other zero is positive
      refine Bool.eq_false_iff.mpr fun hnegative => hzero ?_
      obtain rfl : r = ⟨0, by decide⟩ := Fin.ext hr
      rw [hnegative]

/-- An integer literal reads back from its text. -/
theorem numberLiteral?_numberText_int {s : String} {i : Int}
    (h : numberLiteral? s = some (.int i)) :
    numberLiteral? (String.ofList (numberText (.ofInt i))) = some (.int i) := by
  obtain ⟨x, hx⟩ := numberLiteral?_eq_ofDouble? h
  rcases ofInt_of_ofDouble? hx with ⟨hint, hnan, hzero⟩ | ⟨rfl, -⟩
  · rw [hint, numberLiteral?_text hnan hzero, hx]
  · rw [ofInt_zero, numberLiteral?_text (by decide) (by decide)]
    exact ofDouble?_of_isWhole (isWhole_zero false) (truncate?_zero false)

end Json

end DocDesk
