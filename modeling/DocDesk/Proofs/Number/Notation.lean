import DocDesk.Proofs.Number.Literal

/-!
# The characters of number texts

A text that stands for a number, as a decimal numeral of any script, in another base or as an infinity,
is written in digits, letters, points and signs alone, and so holds no quote, bracket or backslash.

Main statement: `isNotation_of_value`.
-/

namespace DocDesk

namespace Numeral

/-- A digit of any script, a letter, a point or a sign. -/
def isNotation (c : Char) : Bool := Text.isDigit c || Json.isNumberChar c

/-- A digit of any script may stand in a number. -/
theorem isNotation_of_isDigit {c : Char} (h : Text.isDigit c = true) : isNotation c = true := by
  rw [isNotation, h, Bool.true_or]

/-- So may a character of JSON numbers. -/
theorem isNotation_of_isNumberChar {c : Char} (h : Json.isNumberChar c = true) :
    isNotation c = true := by
  rw [isNotation, h, Bool.or_true]

/-! ## Decimal numerals -/

/-- A text without the sign at its front, if it has one. -/
def unsigned (cs : List Char) : List Char :=
  match cs with
  | '-' :: r => r
  | '+' :: r => r
  | _ => cs

/-- What follows the digits of a text, with a point and the digits behind it. -/
def afterDigits (cs : List Char) : List Char :=
  match cs.dropWhile Text.isDigit with
  | '.' :: t => t.dropWhile Text.isDigit
  | r => r

section Decimal

variable {cs t : List Char}

/-- Behind the digits a point may stand, with digits behind it. -/
theorem afterDigits_of_point (h : cs.dropWhile Text.isDigit = '.' :: t) :
    afterDigits cs = t.dropWhile Text.isDigit := by
  simp only [afterDigits, h]

/-- Without a point the digits are all there is. -/
theorem afterDigits_of_no_point (h : ∀ t, cs.dropWhile Text.isDigit ≠ '.' :: t) :
    afterDigits cs = cs.dropWhile Text.isDigit := by
  unfold afterDigits
  split
  · next t ht => exact absurd ht (h t)
  · rfl

/-- Behind its digits a decimal numeral is over, or ends with an exponent. -/
theorem exponent_of_isDecimal (h : isDecimal cs = true) :
    afterDigits (unsigned cs) = [] ∨ ∃ mark t, afterDigits (unsigned cs) = mark :: t ∧
      (mark = 'e' ∨ mark = 'E') ∧ ∀ c ∈ unsigned t, Text.isDigit c = true := by
  unfold isDecimal at h
  dsimp only at h
  rw [Bool.and_eq_true] at h
  obtain ⟨-, h⟩ := h
  split at h
  · next hrest =>
    left
    split at hrest
    · next t ht => exact (afterDigits_of_point ht).trans hrest
    · next hne => exact (afterDigits_of_no_point hne).trans hrest
  · next mark t hrest =>
    rw [Bool.and_eq_true, Bool.and_eq_true] at h
    refine .inr ⟨mark, t, ?_, by simpa using h.1.1, List.all_eq_true.mp h.2⟩
    split at hrest
    · next t' ht => exact (afterDigits_of_point ht).trans hrest
    · next hne => exact (afterDigits_of_no_point hne).trans hrest

/-- A sign may stand in front. -/
theorem isNotation_of_unsigned (h : ∀ c ∈ unsigned cs, isNotation c = true) :
    ∀ c ∈ cs, isNotation c = true := by
  unfold unsigned at h
  split at h
  · exact List.forall_mem_cons.mpr ⟨by decide, h⟩
  · exact List.forall_mem_cons.mpr ⟨by decide, h⟩
  · exact h

/-- So may digits. -/
theorem isNotation_of_dropWhile (h : ∀ c ∈ cs.dropWhile Text.isDigit, isNotation c = true) :
    ∀ c ∈ cs, isNotation c = true := by
  intro c hc
  rw [← List.takeWhile_append_dropWhile (p := Text.isDigit) (l := cs), List.mem_append] at hc
  rcases hc with hc | hc
  · exact isNotation_of_isDigit (Text.of_mem_takeWhile hc)
  · exact h c hc

/-- So may digits with a point among them. -/
theorem isNotation_of_afterDigits (h : ∀ c ∈ afterDigits cs, isNotation c = true) :
    ∀ c ∈ cs, isNotation c = true := by
  refine isNotation_of_dropWhile ?_
  unfold afterDigits at h
  split at h
  · next t hdrop =>
    rw [hdrop]
    exact List.forall_mem_cons.mpr ⟨by decide, isNotation_of_dropWhile h⟩
  · exact h

/-- A decimal has no other characters. -/
theorem isNotation_of_isDecimal (h : isDecimal cs = true) : ∀ c ∈ cs, isNotation c = true := by
  refine isNotation_of_unsigned (isNotation_of_afterDigits ?_)
  rcases exponent_of_isDecimal h with hnil | ⟨mark, t, hcons, hmark, hdigits⟩
  · simp [hnil]
  · rw [hcons]
    refine List.forall_mem_cons.mpr ⟨?_, isNotation_of_unsigned ?_⟩
    · rcases hmark with rfl | rfl <;> decide
    · exact fun c hc => isNotation_of_isDigit (hdigits c hc)

end Decimal

/-! ## Other number texts -/

/-- Neither has a text of digits and the letters that count as digits. -/
theorem isNotation_of_range {c first last : Char} (h : first ≤ c ∧ c ≤ last)
    (hrange : (first, last) ∈ [('0', '9'), ('a', 'f'), ('A', 'F')]) : isNotation c = true := by
  have hlow : first.toNat ≤ c.toNat := h.1
  have hhigh : c.toNat ≤ last.toNat := h.2
  have hcode : 48 ≤ c.toNat ∧ c.toNat ≤ 57 ∨ 97 ≤ c.toNat ∧ c.toNat ≤ 122 ∨
      65 ≤ c.toNat ∧ c.toNat ≤ 90 := by
    simp only [List.mem_cons, Prod.mk.injEq, List.not_mem_nil, or_false] at hrange
    rcases hrange with ⟨rfl, rfl⟩ | ⟨rfl, rfl⟩ | ⟨rfl, rfl⟩
    · exact .inl ⟨hlow, hhigh⟩
    · exact .inr (.inl ⟨hlow, Nat.le_trans hhigh (by decide)⟩)
    · exact .inr (.inr ⟨hlow, Nat.le_trans hhigh (by decide)⟩)
  have halnum : c.isAlphanum = true := by
    delta Char.isAlphanum Char.isAlpha Char.isUpper Char.isLower Char.isDigit
    simp only [Bool.or_eq_true, Bool.and_eq_true, decide_eq_true_eq]
    rcases hcode with ⟨hlow, hhigh⟩ | ⟨hlow, hhigh⟩ | ⟨hlow, hhigh⟩
    · exact .inr ⟨hlow, hhigh⟩
    · exact .inl (.inr ⟨hlow, hhigh⟩)
    · exact .inl (.inl ⟨hlow, hhigh⟩)
  refine isNotation_of_isNumberChar ?_
  simp [Json.isNumberChar, halnum]

/-- A digit of another base may stand in a number. -/
theorem isNotation_of_radixDigit? {base n : Nat} {c : Char} (h : radixDigit? base c = some n) :
    isNotation c = true := by
  unfold radixDigit? at h
  dsimp only at h
  split at h
  · next hrange => exact isNotation_of_range hrange (by simp)
  · split at h
    · next hrange => exact isNotation_of_range hrange (by simp)
    · split at h
      · next hrange => exact isNotation_of_range hrange (by simp)
      · rw [if_neg (Nat.lt_irrefl base)] at h
        cases h

/-- A number of such digits has no other characters. -/
theorem isNotation_of_foldlM {base start n : Nat} {cs : List Char}
    (h : cs.foldlM (fun n c => (radixDigit? base c).map (n * base + ·)) start = some n) :
    ∀ c ∈ cs, isNotation c = true := by
  induction cs generalizing start with
  | nil => simp
  | cons c cs ih =>
    rw [List.foldlM_cons] at h
    obtain ⟨next, hnext, hrest⟩ := Option.bind_eq_some_iff.mp h
    obtain ⟨digit, hdigit, -⟩ := Option.map_eq_some_iff.mp hnext
    exact List.forall_mem_cons.mpr ⟨isNotation_of_radixDigit? hdigit, ih hrest⟩

/-- The same for a number that is not empty. -/
theorem isNotation_of_ofRadix? {base n : Nat} {cs : List Char} (h : ofRadix? base cs = some n) :
    ∀ c ∈ cs, isNotation c = true := by
  unfold ofRadix? at h
  split at h
  · cases h
  · exact isNotation_of_foldlM h

/-- The same with the mark of the base in front. -/
theorem isNotation_of_radix? {n : Nat} {cs : List Char} (h : radix? cs = some n) :
    ∀ c ∈ cs, isNotation c = true := by
  unfold radix? at h
  split at h
  · next mark r =>
    refine List.forall_mem_cons.mpr ⟨by decide, List.forall_mem_cons.mpr ?_⟩
    split at h
    · next hmark => exact ⟨by rcases hmark with rfl | rfl <;> decide, isNotation_of_ofRadix? h⟩
    · split at h
      · next hmark => exact ⟨by rcases hmark with rfl | rfl <;> decide, isNotation_of_ofRadix? h⟩
      · split at h
        · next hmark => exact ⟨by rcases hmark with rfl | rfl <;> decide, isNotation_of_ofRadix? h⟩
        · cases h
  · cases h

/-- The word for infinity has no other characters. -/
theorem isNotation_of_infinity? {x : Binary64} {cs : List Char} (h : infinity? cs = some x) :
    ∀ c ∈ cs, isNotation c = true := by
  have hword : ∀ sign ∈ [[], ['+'], ['-']],
      (sign ++ "Infinity".toList).all isNotation = true := by decide
  unfold infinity? at h
  dsimp only at h
  split at h
  · next hcs =>
    rcases hcs with rfl | rfl
    · exact List.all_eq_true.mp (hword [] (by simp))
    · exact List.all_eq_true.mp (hword ['+'] (by simp))
  · split at h
    · next hcs =>
      rw [hcs]
      exact List.all_eq_true.mp (hword ['-'] (by simp))
    · cases h

/-- Every character of a text that stands for a number is of the notation of numbers. -/
theorem isNotation_of_value {cs : List Char} (h : value cs ≠ .nan) :
    ∀ c ∈ cs, isNotation c = true := by
  unfold value at h
  split at h
  · next hempty => simp [List.isEmpty_iff.mp hempty]
  · split at h
    · next hdecimal => exact isNotation_of_isDecimal hdecimal
    · split at h
      · next hradix => exact isNotation_of_radix? hradix
      · cases hinfinity : infinity? cs with
        | none => simp [hinfinity] at h
        | some x => exact isNotation_of_infinity? hinfinity

end Numeral

end DocDesk
