import DocDesk.Json.Reader
import DocDesk.Json.Writer
import DocDesk.Proofs.Number.Magnitude
import Mathlib.Tactic.IntervalCases

/-!
# Written scalars read back

Each text, integer and double is read back from the characters it is written as, whatever follows it.
A double without a value in JSON text is refused under the name it is written with.

Main statements: `readString_quotedString`, `readScalar_intText` and `readScalar_floatText`.
-/

namespace DocDesk.Json.Reader

open Writer (escaped quotedString floatText)

/-! ## Texts -/

/-- A code unit is read from its four digits. -/
theorem hexUnit?_hexText {n : Nat} (hn : n < 0x20) (c : Char) (r : List Char) :
    hexUnit? (Text.hexText 4 n ++ c :: r) = some (n, c :: r) := by
  interval_cases n <;> rfl

/-- The result of a reading with one more character at the front. -/
def withFront (c : Char) (result : Result (List Char)) : Result (List Char) :=
  result.map fun p => (c :: p.1, p.2)

/-- An escape of a letter is read as its character. -/
theorem readChars_letter {start : Nat} {e c : Char} {r : List Char} (he : e ≠ 'u')
    (hc : escape? e = some c) :
    readChars start ('\\' :: e :: r) = withFront c (readChars start r) := by
  rw [readChars.eq_def]
  simp [he, hc]
  rcases readChars start r with f | ⟨cs, rest⟩ <;> rfl

/-- An escape of a code unit is read as its character. -/
theorem readChars_unit {start n : Nat} {r s : List Char} (hn : n < 0xD800)
    (h : hexUnit? r = some (n, s)) :
    readChars start ('\\' :: 'u' :: r) = withFront (Char.ofNat n) (readChars start s) := by
  have hhigh : isHighUnit n = false := by simp [isHighUnit]; omega
  have hlow : isLowUnit n = false := by simp [isLowUnit]; omega
  rw [readChars.eq_def]
  simp only [↓reduceIte, Char.reduceEq]
  split
  · next hu => rw [h] at hu; cases hu
  · next hu =>
    rw [h] at hu
    cases hu
    rw [hhigh]
    simp only [unitChar, hhigh, hlow]
    rcases readChars start s with f | ⟨cs, rest⟩ <;> rfl

/-- Any other character is read as it is. -/
theorem readChars_plain {start : Nat} {c : Char} {r : List Char} (hlow : 0x20 ≤ c.toNat)
    (hquote : c ≠ '"') (hslash : c ≠ '\\') :
    readChars start (c :: r) = withFront c (readChars start r) := by
  have hnot : ¬ c.toNat < 0x20 := by omega
  rw [readChars.eq_def]
  simp only [if_neg hquote, if_neg hslash, if_neg hnot]
  rcases readChars start r with f | ⟨cs, rest⟩ <;> rfl

/-- The spelling of one character is read as this character. -/
theorem readChars_escaped (start : Nat) (c d : Char) (r : List Char) :
    readChars start (escaped c ++ d :: r) = withFront c (readChars start (d :: r)) := by
  unfold escaped
  -- the seven characters with an escape of their own
  iterate 7
    split
    · next h => subst h; exact readChars_letter (by decide) rfl
  -- then what is spelt by its number, then what stands for itself
  split
  · next h =>
    have hread := hexUnit?_hexText h d r
    rw [List.cons_append, List.cons_append, readChars_unit (by omega) hread, Char.ofNat_toNat]
  · exact readChars_plain (by omega) ‹_› ‹_›

/-- The spelling of a text is read up to its closing quote. -/
theorem readChars_quoted (start : Nat) (cs r : List Char) :
    readChars start (cs.flatMap escaped ++ '"' :: r) = .ok (cs, r) := by
  induction cs with
  | nil => rw [List.flatMap_nil, List.nil_append, readChars.eq_def]; rfl
  | cons c cs ih =>
    obtain ⟨d, t, hd⟩ : ∃ d t, cs.flatMap escaped ++ '"' :: r = d :: t :=
      List.exists_cons_of_ne_nil (by simp)
    rw [List.flatMap_cons, List.append_assoc, hd, readChars_escaped, ← hd, ih]
    rfl

/-- A text is read back from its spelling. -/
theorem readString_quotedString (s : String) (r : List Char) :
    ∃ t, quotedString s ++ r = '"' :: t ∧ readString t = .ok (s, r) := by
  refine ⟨s.toList.flatMap escaped ++ '"' :: r, by simp [quotedString], ?_⟩
  rw [readString, readChars_quoted]
  simp

/-! ## Numerals -/

/-- What follows does not go on with a numeral. -/
def EndsNumeral (r : List Char) : Prop :=
  ∀ c ∈ r.head?, c.isDigit = false ∧ c ≠ '.' ∧ c ≠ 'e' ∧ c ≠ 'E'

section Numerals

variable {p : Numeral.Parts} {r : List Char}

/-- The whole part goes on up to what is no digit. -/
theorem wholePart_append (hp : p.NoIdleZero) (hr : ∀ c ∈ r.head?, c.isDigit = false) :
    wholePart (p.whole ++ r) = (p.whole, r) := by
  rcases hp with hzero | hhead
  · rw [hzero]
    rfl
  · obtain ⟨d, ds, hds⟩ := List.exists_cons_of_ne_nil p.whole_ne
    have htake := Text.takeWhile_append_of_stop p.whole_digits hr
    have hdrop := Text.dropWhile_append_of_stop p.whole_digits hr
    rw [hds, List.cons_append] at htake hdrop
    rw [hds, List.cons_append]
    have hd : d ≠ '0' := fun h => hhead (by rw [hds, h]; rfl)
    unfold wholePart
    split
    · next h => cases h; exact absurd rfl hd
    · rw [htake, hdrop]

/-- The fraction goes on up to what is neither digit nor point. -/
theorem fractionPart_append (hr : ∀ c ∈ r.head?, c.isDigit = false ∧ c ≠ '.') :
    (fractionPart (p.pointText ++ r)).getD ([], p.pointText ++ r) = (p.fraction, r) := by
  unfold Numeral.Parts.pointText
  split
  · next h =>
    rw [h, List.nil_append]
    unfold fractionPart
    split
    · exact absurd rfl (hr '.' rfl).2
    · rfl
  · next h =>
    have hstop : ∀ c ∈ r.head?, c.isDigit = false := fun c hc => (hr c hc).1
    have htake := Text.takeWhile_append_of_stop p.fraction_digits hstop
    have hdrop := Text.dropWhile_append_of_stop p.fraction_digits hstop
    simp only [List.cons_append, fractionPart, htake, hdrop]
    simp [h]

/-- The exponent goes on up to the end of the numeral. -/
theorem exponentPart_append (hr : EndsNumeral r) :
    exponentPart (p.exponentMark ++ r) = p.exponent.map (·, r) := by
  unfold Numeral.Parts.exponentMark
  cases p.exponent with
  | none =>
    cases r with
    | nil => rfl
    | cons c r =>
      have hc := (hr c rfl).2.2
      simp [exponentPart, hc]
  | some e =>
    have hstop : ∀ c ∈ r.head?, c.isDigit = false := fun c hc => (hr c hc).1
    obtain ⟨ds, hne, hdigits, hvalue, htext⟩ := Numeral.exponentText_eq e
    have htake := Text.takeWhile_append_of_stop hdigits hstop
    have hdrop := Text.dropWhile_append_of_stop hdigits hstop
    have hnat := Decimal.natOfDigits_digitValues hdigits
    by_cases he : e < 0
    · have habs : |e| = -e := abs_of_neg he
      simp only [htext, if_pos he, List.cons_append, exponentPart, Whole.splitSign, htake, hdrop, hnat, hvalue]
      simp [hne, habs]
    · have habs : |e| = e := abs_of_nonneg (Int.not_lt.mp he)
      simp only [htext, if_neg he, List.cons_append, exponentPart, Whole.splitSign, htake, hdrop, hnat, hvalue]
      simp [hne, habs]

end Numerals

/-- The sign is split off a numeral. -/
theorem splitMinus_text (negative : Bool) (p : Numeral.Parts) (r : List Char) :
    splitMinus (Binary64.signText negative ++ (p.text ++ r)) = (negative, p.text ++ r) := by
  cases negative with
  | true => rfl
  | false =>
    obtain ⟨d, t, hd, htext⟩ := p.text_eq_cons
    rw [htext]
    simp only [Binary64.signText, Bool.false_eq_true, ↓reduceIte, List.nil_append, List.cons_append]
    unfold splitMinus
    split
    · next h => cases h; cases hd
    · rfl

/-- The parts of a numeral are found behind its sign. -/
theorem readNumber_text {p : Numeral.Parts} {r : List Char} (negative : Bool) (hp : p.NoIdleZero)
    (hr : EndsNumeral r) :
    readNumber (Binary64.signText negative ++ (p.text ++ r)) =
      if p.fraction = [] ∧ p.exponent = none then
        match readDigits p.whole with
        | .ok n => .ok (.int (if negative then -(n : Int) else n), r)
        | .error f => .error (.digits f)
      else .ok (.float (.ofDecimal negative p.decimal), r) := by
  -- where each part of the numeral ends: the whole digits at the point, the fraction at the mark
  have hmark : ∀ c ∈ (p.exponentMark ++ r).head?, c.isDigit = false ∧ c ≠ '.' := by
    intro c hc
    rcases p.exponentMark_cases with he | ⟨sign, ds, -, -, -, he⟩
    · rw [he] at hc
      exact ⟨(hr c hc).1, (hr c hc).2.1⟩
    · rw [he] at hc
      cases hc
      decide
  have hpoint : ∀ c ∈ (p.pointText ++ (p.exponentMark ++ r)).head?, c.isDigit = false := by
    intro c hc
    unfold Numeral.Parts.pointText at hc
    split at hc
    · exact (hmark c hc).1
    · cases hc
      rfl
  have hwhole := wholePart_append hp hpoint
  have hfraction := fractionPart_append (p := p) hmark
  have hexponent := exponentPart_append (p := p) hr
  have hne : p.whole.isEmpty = false := List.isEmpty_eq_false_iff.mpr p.whole_ne
  have htext : p.text ++ r = p.whole ++ (p.pointText ++ (p.exponentMark ++ r)) := by
    simp [Numeral.Parts.text]
  have hdigits := Decimal.natOfDigits_digitValues (digits_append p.whole_digits p.fraction_digits)
  have hsplit := splitMinus_text negative p r
  rw [htext] at hsplit ⊢
  simp only [readNumber, hsplit, hwhole, hfraction, hexponent, hne, hdigits,
    Bool.false_eq_true, ↓reduceIte]
  cases he : p.exponent with
  | some e => simp [Numeral.Parts.decimal, he]
  | none =>
    cases hread : readDigits p.whole with
    | ok n => simp [Numeral.Parts.decimal, Numeral.Parts.exponentMark, he]
    | error f => simp [Numeral.Parts.decimal, Numeral.Parts.exponentMark, he]

/-- An integer is read back from its digits, if they are not too many. -/
theorem readNumber_intText {i : Int} {r : List Char} (hlen : (natText i.natAbs).length ≤ digitLimit)
    (hr : EndsNumeral r) : readNumber (intText i ++ r) = .ok (.int i, r) := by
  have hread := readNumber_text (decide (i < 0)) (Numeral.Parts.noIdleZero_ofNat i.natAbs) hr
  have hdigits := readDigits_eq_ok (fun _ => isDigit_of_mem_natText (n := i.natAbs)) hlen
  have htext : intText i ++ r = Binary64.signText (decide (i < 0)) ++ (natText i.natAbs ++ r) := by
    simp [intText, Binary64.signText]
  have hwhole : (Numeral.ofNat i.natAbs).whole = natText i.natAbs := rfl
  rw [Numeral.text_ofNat, hwhole, hdigits, if_pos ⟨rfl, rfl⟩, ofDigitChars_natText] at hread
  rw [htext, hread]
  by_cases hi : i < 0
  · have hvalue : -(i.natAbs : Int) = i := by omega
    simp only [decide_eq_true hi, if_pos, hvalue]
  · have hvalue : (i.natAbs : Int) = i := by omega
    simp only [decide_eq_false hi, Bool.false_eq_true, if_false, hvalue]

/-- A finite double is read back from its text. -/
theorem readNumber_floatText {x : Binary64} {r : List Char} (hx : x.isFinite = true)
    (hr : EndsNumeral r) : readNumber (floatText x ++ r) = .ok (.float x, r) := by
  cases x with
  | nan => cases hx
  | infinite negative => cases hx
  | finite negative rank =>
    obtain ⟨p, htext, hfront, hbroken, hvalue⟩ := Binary64.exists_numeral_magnitudeText rank
    have hread := readNumber_text negative hfront hr
    have hnot : ¬ (p.fraction = [] ∧ p.exponent = none) := by
      rintro ⟨hfraction, hexponent⟩
      exact hbroken.elim (absurd hfraction) (absurd hexponent)
    rw [if_neg hnot, hvalue] at hread
    rw [← hread, htext, ← List.append_assoc]
    rfl

/-! ## Words -/

/-- A numeral is no word. -/
theorem readWord?_numeral (negative : Bool) (p : Numeral.Parts) (r : List Char) :
    readWord? (Binary64.signText negative ++ (p.text ++ r)) = none := by
  obtain ⟨d, t, hd, htext⟩ := p.text_eq_cons
  have hne : ∀ c : Char, c.isDigit = false → c ≠ d := by
    rintro c hc rfl
    rw [hc] at hd
    cases hd
  have h1 := hne 'n' rfl
  have h2 := hne 't' rfl
  have h3 := hne 'f' rfl
  have h4 := hne 'N' rfl
  have h5 := hne 'I' rfl
  have h6 := hne '-' rfl
  rw [htext]
  cases negative with
  | true => simp [readWord?, words, Binary64.signText, Text.after?, h5]
  | false => simp [readWord?, words, Binary64.signText, Text.after?, h1, h2, h3, h4, h5, h6]

/-- The name under which a double is written that has no value in JSON text. -/
def constantName? : Binary64 → Option String
  | .nan => some "NaN"
  | .infinite false => some "Infinity"
  | .infinite true => some "-Infinity"
  | .finite _ _ => none

/-- A double has no constant for it exactly if it is finite. -/
theorem constantName?_eq_none_iff (x : Binary64) : constantName? x = none ↔ x.isFinite = true := by
  rcases x with _ | (_ | _) | _ <;> simp [constantName?, Binary64.isFinite]

/-- An integer that is not too long is read from its text. -/
theorem readScalar_intText {i : Int} {r : List Char} (hlen : (natText i.natAbs).length ≤ digitLimit)
    (hr : EndsNumeral r) : readScalar (intText i ++ r) = .ok (.int i, r) := by
  have hword := readWord?_numeral (decide (i < 0)) (Numeral.ofNat i.natAbs) r
  have htext : intText i ++ r = Binary64.signText (decide (i < 0)) ++ (natText i.natAbs ++ r) := by
    simp [intText, Binary64.signText]
  rw [Numeral.text_ofNat, ← htext] at hword
  rw [readScalar, hword, Option.getD_none, readNumber_intText hlen hr]

/-- A double is read back from its text if it is finite, and refused under its name if not. -/
theorem readScalar_floatText {x : Binary64} {r : List Char} (hr : EndsNumeral r) :
    readScalar (floatText x ++ r) =
      match constantName? x with
      | none => .ok (.float x, r)
      | some name => .error (.constant name) := by
  cases x with
  | nan => rfl
  | infinite negative => cases negative <;> rfl
  | finite negative rank =>
    obtain ⟨p, htext, -⟩ := Binary64.exists_numeral_magnitudeText rank
    have hword := readWord?_numeral negative p r
    have hshape : floatText (.finite negative rank) ++ r
        = Binary64.signText negative ++ (p.text ++ r) := by
      rw [htext, ← List.append_assoc]
      rfl
    rw [readScalar, hshape, hword, Option.getD_none, ← hshape, readNumber_floatText rfl hr]
    rfl

end DocDesk.Json.Reader
