import DocDesk.Json.Loose
import DocDesk.Proofs.Number.Digits
import DocDesk.Proofs.Text.Parts

/-!
# Written numerals

The numerals that a double is written as: ASCII digits, a point with more digits, an exponent.  Such a
numeral is a decimal numeral and is read as the decimal that it writes; whatever form a writer picks
for given digits and a given place of the point, the decimal is the same up to trailing zeros.

Main statements: `Parts.readUnsigned_text` and `exists_parts_decimalText`.
-/

namespace DocDesk

/-- A digit of ASCII is a digit. -/
theorem isDigit_of_ascii {c : Char} (h : c.isDigit = true) : Text.isDigit c = true := by
  rw [Text.isDigit, Text.digit?_ascii h, Option.isSome_some]

/-- Digits behind digits are digits. -/
theorem digits_append {a b : List Char} (ha : ∀ c ∈ a, c.isDigit = true)
    (hb : ∀ c ∈ b, c.isDigit = true) : ∀ c ∈ a ++ b, c.isDigit = true := by
  intro c hc
  rcases List.mem_append.mp hc with hc | hc
  · exact ha c hc
  · exact hb c hc

/-- Zeros are digits. -/
theorem digits_zeros (n : Nat) : ∀ c ∈ List.replicate n '0', c.isDigit = true := by
  intro c hc
  rw [List.eq_of_mem_replicate hc]
  rfl

namespace Numeral

/-- A numeral without a sign: digits, digits behind the point, and the exponent if it has one. -/
structure Parts where
  whole : List Char
  fraction : List Char
  exponent : Option Int
  whole_ne : whole ≠ []
  whole_digits : ∀ c ∈ whole, c.isDigit = true
  fraction_digits : ∀ c ∈ fraction, c.isDigit = true

namespace Parts

variable (p : Parts)

/-- The point and the digits behind it; no point without digits. -/
def pointText : List Char := if p.fraction = [] then [] else '.' :: p.fraction

/-- The mark and the exponent. -/
def exponentMark : List Char :=
  match p.exponent with
  | none => []
  | some e => 'e' :: Binary64.exponentText e

/-- The numeral as it is written. -/
def text : List Char := p.whole ++ (p.pointText ++ p.exponentMark)

/-- The decimal that the numeral writes. -/
def decimal : Decimal :=
  ⟨Nat.ofDigitChars 10 (p.whole ++ p.fraction) 0, p.exponent.getD 0 - p.fraction.length⟩

end Parts

/-! ## Exponents -/

/-- An exponent is a sign and digits. -/
theorem exponentText_eq (e : Int) :
    ∃ ds, ds ≠ [] ∧ (∀ c ∈ ds, c.isDigit = true) ∧ Nat.ofDigitChars 10 ds 0 = e.natAbs ∧
      Binary64.exponentText e = (if e < 0 then '-' else '+') :: ds := by
  have hdigits : ∀ c ∈ Nat.toDigits 10 e.natAbs, c.isDigit = true := fun c => isDigit_of_mem_natText
  have hvalue := ofDigitChars_natText e.natAbs
  unfold Binary64.exponentText
  dsimp only
  by_cases hshort : (Nat.toDigits 10 e.natAbs).length < 2
  · rw [if_pos hshort]
    refine ⟨_, by simp, ?_, ?_, rfl⟩
    · intro c hc
      rcases List.mem_cons.mp hc with rfl | hc
      · rfl
      · exact hdigits c hc
    · exact hvalue
  · rw [if_neg hshort]
    exact ⟨_, Nat.toDigits_ne_nil, hdigits, hvalue, rfl⟩

/-- An exponent is read from its text. -/
theorem readExponent_exponentText (e : Int) :
    Decimal.readExponent (Binary64.exponentText e) = e := by
  obtain ⟨ds, -, hdigits, hvalue, htext⟩ := exponentText_eq e
  rw [htext]
  by_cases he : e < 0
  · rw [if_pos he, Decimal.readExponent, Decimal.natOfDigits_digitValues hdigits, hvalue]
    omega
  · rw [if_neg he, Decimal.readExponent, Decimal.natOfDigits_digitValues hdigits, hvalue]
    omega

/-! ## Reading the parts -/

namespace Parts

variable (p : Parts)

/-- There is no exponent, or it has an `e`, a sign and digits. -/
theorem exponentMark_cases :
    p.exponentMark = [] ∨ ∃ sign ds, (sign = '-' ∨ sign = '+') ∧ ds ≠ [] ∧
      (∀ c ∈ ds, c.isDigit = true) ∧ p.exponentMark = 'e' :: sign :: ds := by
  unfold exponentMark
  split
  · exact .inl rfl
  · next e he =>
    obtain ⟨ds, hne, hdigits, -, htext⟩ := exponentText_eq e
    refine .inr ⟨if e < 0 then '-' else '+', ds, ?_, hne, hdigits, by rw [htext]⟩
    split
    · exact .inl rfl
    · exact .inr rfl

/-- An exponent starts with an `e`. -/
theorem head_exponentMark {c : Char} (h : c ∈ p.exponentMark.head?) : c = 'e' := by
  rcases p.exponentMark_cases with he | ⟨sign, ds, -, -, -, he⟩
  · simp [he] at h
  · simpa [he] using h.symm

/-- Behind the whole digits comes no digit. -/
theorem head_behind_whole {c : Char} (h : c ∈ (p.pointText ++ p.exponentMark).head?) :
    c = '.' ∨ c = 'e' := by
  unfold pointText at h
  split at h
  · exact .inr (p.head_exponentMark h)
  · exact .inl (by simpa using h.symm)

/-- The whole digits end at the point or the mark. -/
theorem cut_whole : p.text.takeWhile Text.isDigit = p.whole ∧
    p.text.dropWhile Text.isDigit = p.pointText ++ p.exponentMark := by
  have hwhole : ∀ c ∈ p.whole, Text.isDigit c = true :=
    fun c hc => isDigit_of_ascii (p.whole_digits c hc)
  have hpoint : ∀ c ∈ (p.pointText ++ p.exponentMark).head?, Text.isDigit c = false := by
    intro c hc
    rcases p.head_behind_whole hc with rfl | rfl <;> decide
  exact ⟨Text.takeWhile_append_of_stop hwhole hpoint, Text.dropWhile_append_of_stop hwhole hpoint⟩

/-- The digits behind the point end at the mark. -/
theorem cut_fraction : (p.fraction ++ p.exponentMark).takeWhile Text.isDigit = p.fraction ∧
    (p.fraction ++ p.exponentMark).dropWhile Text.isDigit = p.exponentMark := by
  have hfraction : ∀ c ∈ p.fraction, Text.isDigit c = true :=
    fun c hc => isDigit_of_ascii (p.fraction_digits c hc)
  have hmark : ∀ c ∈ p.exponentMark.head?, Text.isDigit c = false := by
    intro c hc
    rw [p.head_exponentMark hc]
    decide
  exact ⟨Text.takeWhile_append_of_stop hfraction hmark, Text.dropWhile_append_of_stop hfraction hmark⟩

/-- A numeral is a decimal numeral behind a minus sign. -/
theorem isDecimal_neg : isDecimal ('-' :: p.text) = true := by
  have hne := p.whole_ne
  obtain ⟨htake, hdrop⟩ := p.cut_fraction
  unfold isDecimal
  simp only [p.cut_whole]
  rcases p.exponentMark_cases with he | ⟨sign, ds, hsign, hds, hdigits, he⟩
  · rw [he] at htake hdrop
    by_cases hf : p.fraction = []
    · simp [pointText, hf, he, hne]
    · simp only [pointText, hf, he, htake, hdrop, ↓reduceIte, List.cons_append]
      simp [hne]
  · rw [he] at htake hdrop
    have hall : ∀ c ∈ ds, Text.isDigit c = true := fun c hc => isDigit_of_ascii (hdigits c hc)
    by_cases hf : p.fraction = []
    · rcases hsign with rfl | rfl
      · simpa [pointText, hf, he, hne, hds] using hall
      · simpa [pointText, hf, he, hne, hds] using hall
    · simp only [pointText, hf, he, htake, hdrop, ↓reduceIte, List.cons_append]
      rcases hsign with rfl | rfl
      · simpa [hne, hds] using hall
      · simpa [hne, hds] using hall

/-- A numeral starts with a digit. -/
theorem text_eq_cons : ∃ d t, d.isDigit = true ∧ p.text = d :: t := by
  obtain ⟨d, ds, hds⟩ := List.exists_cons_of_ne_nil p.whole_ne
  exact ⟨d, _, p.whole_digits d (by simp [hds]), by rw [text, hds, List.cons_append]⟩

/-- A numeral is a decimal numeral without a sign. -/
theorem isDecimal_text : isDecimal p.text = true := by
  have hneg := p.isDecimal_neg
  obtain ⟨d, t, hd, htext⟩ := p.text_eq_cons
  rw [htext] at hneg ⊢
  have hbody : isDecimal (d :: t) = isDecimal ('-' :: d :: t) := by
    unfold isDecimal
    split
    · next h => cases h; cases hd
    · next h => cases h; cases hd
    · rfl
  rw [hbody, hneg]

/-- A digit is neither a point nor an `e`. -/
theorem digit_ne_mark {c : Char} (h : c.isDigit = true) : c ≠ '.' ∧ c ≠ 'e' ∧ c ≠ 'E' := by
  refine ⟨?_, ?_, ?_⟩ <;> rintro rfl <;> cases h

/-- The reader of an exponent gives what was written behind the mark, or nothing. -/
theorem readExponent_exponentMark :
    Decimal.readExponent (p.exponentMark.drop 1) = p.exponent.getD 0 := by
  unfold exponentMark
  split
  · next h => rw [h]; rfl
  · next e h => rw [h]; exact readExponent_exponentText e

/-- Behind the point stands the fraction. -/
theorem drop_pointText : p.pointText.drop 1 = p.fraction := by
  unfold pointText
  split
  · next h => rw [h]; rfl
  · rfl

/-- There is nothing but the point and digits. -/
theorem mem_pointText {c : Char} (h : c ∈ p.pointText) : c = '.' ∨ c.isDigit = true := by
  unfold pointText at h
  split at h
  · cases h
  · rcases List.mem_cons.mp h with rfl | h
    · exact .inl rfl
    · exact .inr (p.fraction_digits c h)

/-- A numeral is read as the decimal that it writes. -/
theorem readUnsigned_text : Decimal.readUnsigned p.text = p.decimal := by
  -- the mantissa ends at the mark, and its whole digits at the point
  have hmantissa : ∀ c ∈ p.whole ++ p.pointText, decide (c ≠ 'e' ∧ c ≠ 'E') = true := by
    intro c hc
    rcases List.mem_append.mp hc with hc | hc
    · exact decide_eq_true (digit_ne_mark (p.whole_digits c hc)).2
    · rcases p.mem_pointText hc with rfl | hc
      · decide
      · exact decide_eq_true (digit_ne_mark hc).2
  have hmark : ∀ c ∈ p.exponentMark.head?, decide (c ≠ 'e' ∧ c ≠ 'E') = false := by
    intro c hc
    rw [p.head_exponentMark hc]
    decide
  have hwhole : ∀ c ∈ p.whole, decide (c ≠ '.') = true :=
    fun c hc => decide_eq_true (digit_ne_mark (p.whole_digits c hc)).1
  have hpoint : ∀ c ∈ p.pointText.head?, decide (c ≠ '.') = false := by
    intro c hc
    unfold pointText at hc
    split at hc
    · cases hc
    · obtain rfl : '.' = c := by simpa using hc
      decide
  have hdigits := digits_append p.whole_digits p.fraction_digits
  have hlen : (Decimal.digitValues p.fraction).length = p.fraction.length := by
    rw [Decimal.digitValues_of_isDigit p.fraction_digits, List.length_map]
  have hvalues : Decimal.digitValues p.whole ++ Decimal.digitValues p.fraction
      = Decimal.digitValues (p.whole ++ p.fraction) := by
    simp [Decimal.digitValues]
  unfold Decimal.readUnsigned
  dsimp only
  rw [text, ← List.append_assoc, Text.takeWhile_append_of_stop hmantissa hmark,
    Text.dropWhile_append_of_stop hmantissa hmark, Text.takeWhile_append_of_stop hwhole hpoint,
    Text.dropWhile_append_of_stop hwhole hpoint, drop_pointText, readExponent_exponentMark, hlen,
    hvalues, Decimal.natOfDigits_digitValues hdigits]
  rfl

/-- The characters of a numeral. -/
theorem mem_text {c : Char} (h : c ∈ p.text) : c.isDigit = true ∨ c ∈ ['.', 'e', '-', '+'] := by
  rw [text, List.mem_append, List.mem_append] at h
  rcases h with h | h | h
  · exact .inl (p.whole_digits c h)
  · rcases p.mem_pointText h with rfl | h
    · exact .inr (by decide)
    · exact .inl h
  · rcases p.exponentMark_cases with he | ⟨sign, ds, hsign, -, hdigits, he⟩
    · rw [he] at h
      cases h
    · rw [he, List.mem_cons, List.mem_cons] at h
      rcases h with rfl | rfl | h
      · exact .inr (by decide)
      · rcases hsign with rfl | rfl
        · exact .inr (by decide)
        · exact .inr (by decide)
      · exact .inl (hdigits c h)

end Parts

/-! ## The forms of a writer -/

/-- The digits of a natural number are a numeral. -/
def ofNat (n : Nat) : Parts where
  whole := natText n
  fraction := []
  exponent := none
  whole_ne := natText_ne_nil n
  whole_digits := fun _ => isDigit_of_mem_natText
  fraction_digits := by simp

/-- A natural number is written as its digits. -/
theorem text_ofNat (n : Nat) : (ofNat n).text = natText n := by
  simp [ofNat, Parts.text, Parts.pointText, Parts.exponentMark]

/-- It has no fraction. -/
theorem decimal_ofNat (n : Nat) : (ofNat n).decimal = ⟨n, 0⟩ := by
  simp [ofNat, Parts.decimal, ofDigitChars_natText]

/-- The text is a numeral that writes the digits `ds`, with some zeros behind them, and the point after
the first `place` of them. -/
def Writes (text ds : List Char) (place : Int) : Prop :=
  ∃ (p : Parts) (k : Nat), p.text = text ∧
    p.decimal = ⟨Nat.ofDigitChars 10 ds 0 * 10 ^ k, place - ds.length - k⟩

section Forms

variable {ds : List Char} {place : Int}

/-- The exponent form. -/
theorem writes_exponent {d : Char} (hds : ∀ c ∈ d :: ds, c.isDigit = true) :
    Writes (match ds with
      | [] => d :: 'e' :: Binary64.exponentText (place - 1)
      | _ => d :: '.' :: ds ++ 'e' :: Binary64.exponentText (place - 1)) (d :: ds) place := by
  have hd : ∀ c ∈ [d], c.isDigit = true := by simpa using hds d
  have hrest : ∀ c ∈ ds, c.isDigit = true := fun c hc => hds c (List.mem_cons_of_mem _ hc)
  refine ⟨⟨[d], ds, some (place - 1), by simp, hd, hrest⟩, 0, ?_, ?_⟩
  · cases ds with
    | nil => simp [Parts.text, Parts.pointText, Parts.exponentMark]
    | cons d' ds => simp [Parts.text, Parts.pointText, Parts.exponentMark]
  · simp [Parts.decimal]
    omega

/-- Zeros behind the point. -/
theorem writes_zeros_behind (hne : ds ≠ []) (hds : ∀ c ∈ ds, c.isDigit = true) (hplace : place ≤ 0) :
    Writes ('0' :: '.' :: List.replicate (-place).toNat '0' ++ ds) ds place := by
  have hzero : ∀ c ∈ ['0'], c.isDigit = true := by simp
  have hfraction : ∀ c ∈ List.replicate (-place).toNat '0' ++ ds, c.isDigit = true :=
    digits_append (digits_zeros _) hds
  refine ⟨⟨['0'], _, none, by simp, hzero, hfraction⟩, 0, ?_, ?_⟩
  · simp [Parts.text, Parts.pointText, Parts.exponentMark, hne]
  · have hvalue : Nat.ofDigitChars 10 (['0'] ++ (List.replicate (-place).toNat '0' ++ ds)) 0
        = Nat.ofDigitChars 10 ds 0 := by
      rw [Nat.ofDigitChars_append, Nat.ofDigitChars_append, Nat.ofDigitChars_replicate_zero]
      rfl
    simp only [Parts.decimal, hvalue, List.length_append, List.length_replicate]
    simp
    omega

/-- Zeros before the point. -/
theorem writes_zeros_before (hne : ds ≠ []) (hds : ∀ c ∈ ds, c.isDigit = true)
    (hplace : ds.length ≤ place.toNat) :
    Writes (ds ++ List.replicate (place.toNat - ds.length) '0' ++ ['.', '0']) ds place := by
  have hwhole : ∀ c ∈ ds ++ List.replicate (place.toNat - ds.length) '0', c.isDigit = true :=
    digits_append hds (digits_zeros _)
  have hzero : ∀ c ∈ ['0'], c.isDigit = true := by simp
  refine ⟨⟨_, ['0'], none, by simp [hne], hwhole, hzero⟩, place.toNat - ds.length + 1, ?_, ?_⟩
  · simp [Parts.text, Parts.pointText, Parts.exponentMark]
  · have hpos : 0 < ds.length := List.length_pos_iff.mpr hne
    have hzeros : ds ++ List.replicate (place.toNat - ds.length) '0' ++ ['0']
        = ds ++ List.replicate (place.toNat - ds.length + 1) '0' := by
      rw [List.append_assoc, List.replicate_succ']
    simp only [Parts.decimal, hzeros]
    rw [Nat.ofDigitChars_append, Nat.ofDigitChars_replicate_zero, Nat.mul_comm]
    simp
    omega

/-- The point within the digits. -/
theorem writes_point (hds : ∀ c ∈ ds, c.isDigit = true) (hplace : 0 < place)
    (hlen : place.toNat < ds.length) :
    Writes (ds.take place.toNat ++ '.' :: ds.drop place.toNat) ds place := by
  have hwhole : ∀ c ∈ ds.take place.toNat, c.isDigit = true :=
    fun c hc => hds c (List.mem_of_mem_take hc)
  have hfraction : ∀ c ∈ ds.drop place.toNat, c.isDigit = true :=
    fun c hc => hds c (List.mem_of_mem_drop hc)
  have htake : ds.take place.toNat ≠ [] := by
    refine List.ne_nil_of_length_pos ?_
    rw [List.length_take]
    omega
  refine ⟨⟨_, _, none, htake, hwhole, hfraction⟩, 0, ?_, ?_⟩
  · simp [Parts.text, Parts.pointText, Parts.exponentMark]
    omega
  · simp [Parts.decimal]
    omega

/-- Whatever form is chosen for digits and a place of the point, it is a numeral that writes these
digits at this place, with some zeros behind them. -/
theorem exists_parts_decimalText (hne : ds ≠ []) (hds : ∀ c ∈ ds, c.isDigit = true) (place : Int) :
    ∃ (p : Parts) (k : Nat), p.text = Binary64.decimalText ds place ∧
      p.decimal = ⟨Nat.ofDigitChars 10 ds 0 * 10 ^ k, place - ds.length - k⟩ := by
  change Writes (Binary64.decimalText ds place) ds place
  unfold Binary64.decimalText
  split
  · obtain ⟨d, ds, rfl⟩ := List.exists_cons_of_ne_nil hne
    have hform := @writes_exponent ds place d hds
    cases ds with
    | nil => exact hform
    | cons d' ds => exact hform
  split
  · next hplace => exact writes_zeros_behind hne hds hplace
  dsimp only
  split
  · next hlen => exact writes_zeros_before hne hds hlen
  · next hplace hlen => exact writes_point hds (Int.not_le.mp hplace) (Nat.not_le.mp hlen)

end Forms

end Numeral

end DocDesk
