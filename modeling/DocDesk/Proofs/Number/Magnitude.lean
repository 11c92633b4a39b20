import DocDesk.Proofs.Number.ReadBack

/-!
# The numerals of magnitudes

The text of a magnitude is a numeral that shows itself to be no integer, by a point or an exponent, and
that has no idle zero at its front.

Main statement: `exists_numeral_magnitudeText`.
-/

namespace DocDesk

/-- The digits of a number other than zero do not start with a zero. -/
theorem head_natText_ne_zero {n : Nat} (hn : 0 < n) : (natText n).head? ≠ some '0' := by
  intro hhead
  obtain ⟨t, ht⟩ := List.head?_eq_some_iff.mp hhead
  have hlow := pow_length_natText_le hn
  have hvalue := ofDigitChars_natText n
  have hdigits : ∀ c ∈ t, c.isDigit = true := fun c hc => isDigit_of_mem_natText (n := n) (by simp [ht, hc])
  have hhigh := ofDigitChars_lt hdigits
  rw [ht] at hlow hvalue
  rw [Nat.ofDigitChars_cons] at hvalue
  simp only [List.length_cons, Nat.add_sub_cancel] at hlow
  have hrest : Nat.ofDigitChars 10 t 0 = n := hvalue
  omega

namespace Numeral.Parts

/-- The numeral has no idle zero at its front. -/
def NoIdleZero (p : Parts) : Prop := p.whole = ['0'] ∨ p.whole.head? ≠ some '0'

/-- A natural number has no idle zero. -/
theorem noIdleZero_ofNat (n : Nat) : (ofNat n).NoIdleZero := by
  rcases Nat.eq_zero_or_pos n with rfl | hn
  · exact .inl rfl
  · exact .inr (head_natText_ne_zero hn)

/-- The numeral has a fraction or an exponent. -/
def IsBroken (p : Parts) : Prop := p.fraction ≠ [] ∨ p.exponent ≠ none

/-- A numeral whose first zero stands before a point has no idle zero. -/
theorem noIdleZero_of_text {p : Parts}
    (h : (∃ t, p.text = '0' :: '.' :: t) ∨ p.text.head? ≠ some '0') : p.NoIdleZero := by
  obtain ⟨d, ds, hds⟩ := List.exists_cons_of_ne_nil p.whole_ne
  rw [text, hds, List.cons_append] at h
  rcases h with ⟨t, ht⟩ | hhead
  · rw [List.cons.injEq] at ht
    cases ds with
    | nil => exact .inl (by rw [hds, ht.1])
    | cons c ds =>
      have hc : c = '.' := by
        have hcons := ht.2
        rw [List.cons_append, List.cons.injEq] at hcons
        exact hcons.1
      have hdigit := p.whole_digits c (by simp [hds])
      rw [hc] at hdigit
      cases hdigit
  · exact .inr (by simpa [hds] using hhead)

/-- A numeral with a character that is no digit has a fraction or an exponent. -/
theorem isBroken_of_mem {p : Parts} {c : Char} (hc : c ∈ p.text) (hmark : c.isDigit = false) :
    p.IsBroken := by
  by_cases hfraction : p.fraction = []
  · right
    intro hexponent
    have htext : p.text = p.whole := by simp [text, pointText, exponentMark, hfraction, hexponent]
    rw [htext] at hc
    rw [p.whole_digits c hc] at hmark
    cases hmark
  · exact .inl hfraction

end Numeral.Parts

namespace Binary64

/-- The first zero of a decimal stands before the point, unless the digits bring one. -/
theorem decimalText_front {ds : List Char} (hne : ds ≠ []) (hds : ds.head? ≠ some '0') (place : Int) :
    (∃ t, decimalText ds place = '0' :: '.' :: t) ∨ (decimalText ds place).head? ≠ some '0' := by
  obtain ⟨d, ds, rfl⟩ := List.exists_cons_of_ne_nil hne
  unfold decimalText
  split
  · right
    cases ds with
    | nil => simpa using hds
    | cons c ds => simpa using hds
  split
  · exact .inl ⟨_, rfl⟩
  right
  dsimp only
  split
  · simpa using hds
  · have hpos : 0 < place.toNat := by omega
    obtain ⟨n, hn⟩ := Nat.exists_eq_succ_of_ne_zero (Nat.ne_of_gt hpos)
    rw [hn]
    simpa using hds

/-- A decimal holds a point or the mark of an exponent. -/
theorem exists_mark_decimalText {ds : List Char} (hne : ds ≠ []) (place : Int) :
    ∃ c ∈ decimalText ds place, c.isDigit = false := by
  obtain ⟨d, ds, rfl⟩ := List.exists_cons_of_ne_nil hne
  unfold decimalText
  split
  · refine ⟨'e', ?_, rfl⟩
    cases ds <;> simp
  · refine ⟨'.', ?_, rfl⟩
    split
    · simp
    · dsimp only
      split <;> simp

/-- A magnitude is written with its shortest digits. -/
theorem magnitudeText_eq {r : Nat} (hr : 0 < r) :
    magnitudeText r = decimalText (natText (shortest r).coefficient)
      ((natText (shortest r).coefficient).length + (shortest r).exponent) := by
  rw [magnitudeText, if_neg (Nat.ne_of_gt hr)]
  rfl

/-- The text of a magnitude other than zero shows that it is no integer. -/
theorem isBroken_of_magnitudeText {r : Nat} (hr : 0 < r) {p : Numeral.Parts}
    (htext : p.text = magnitudeText r) : p.IsBroken := by
  obtain ⟨c, hc, hmark⟩ := exists_mark_decimalText (natText_ne_nil (shortest r).coefficient)
    ((natText (shortest r).coefficient).length + (shortest r).exponent)
  rw [← magnitudeText_eq hr, ← htext] at hc
  exact Numeral.Parts.isBroken_of_mem hc hmark

/-- The text of a magnitude is a numeral that reads back as the magnitude under both signs. -/
theorem exists_numeral_magnitudeText (r : Fin rankLimit) :
    ∃ p : Numeral.Parts, p.text = magnitudeText r ∧ p.NoIdleZero ∧ p.IsBroken ∧
      ∀ negative, ofDecimal negative p.decimal = .finite negative r := by
  by_cases hr : r.val = 0
  · obtain rfl : r = ⟨0, by decide⟩ := Fin.ext hr
    exact ⟨⟨['0'], ['0'], none, by simp, by simp, by simp⟩, rfl, .inl rfl, .inl (by simp),
      fun negative => ofDecimal_zero negative _⟩
  · have hpos := Nat.pos_of_ne_zero hr
    obtain ⟨p, htext, hround⟩ := exists_parts_magnitudeText hpos
    have hcoefficient : 0 < (shortest r).coefficient :=
      coefficient_pos (e := (shortest r).exponent) hpos (roundsToRank_shortest hpos)
    have hne := natText_ne_nil (shortest r).coefficient
    have hhead := head_natText_ne_zero hcoefficient
    refine ⟨p, htext, ?_, isBroken_of_magnitudeText hpos htext, ofDecimal_of_roundsToRank hpos hround⟩
    refine Numeral.Parts.noIdleZero_of_text ?_
    rw [htext, magnitudeText_eq hpos]
    exact decimalText_front hne hhead _

end Binary64

end DocDesk
