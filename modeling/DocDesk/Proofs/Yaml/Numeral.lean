import DocDesk.Proofs.Number.Literal
import DocDesk.Proofs.Number.Magnitude
import DocDesk.Proofs.Number.Whole
import DocDesk.Proofs.Text.Replacement
import DocDesk.Proofs.Yaml.Plain
import DocDesk.Yaml.Numeral
import DocDesk.Yaml.Writer

/-!
# Written numbers read back from YAML

The numerals of integers and doubles stand plain, count as integers and doubles by their spelling, and
have the value they were written from.

Main statements: `plainSafe_numeral`, `toInt_intText` and `toReal_floatText`.
-/

namespace DocDesk.Yaml

open Binary64 (signText)

/-! ## The characters of numerals -/

/-- A digit, a point, a sign or the mark of an exponent. -/
def IsNumeralChar (c : Char) : Prop := c.isDigit = true ∨ c ∈ ['.', 'e', '-', '+']

/-- Digits have the code points from 48 to 57. -/
theorem toNat_of_isDigit {c : Char} (h : c.isDigit = true) : 48 ≤ c.toNat ∧ c.toNat ≤ 57 := by
  simp only [Char.isDigit, Bool.and_eq_true, decide_eq_true_eq] at h
  exact h

/-- A character of a numeral is a digit, a dot, an `e` or a sign. -/
theorem IsNumeralChar.toNat {c : Char} (h : IsNumeralChar c) :
    48 ≤ c.toNat ∧ c.toNat ≤ 57 ∨ c.toNat ∈ [46, 101, 45, 43] := by
  rcases h with h | h
  · exact .inl (toNat_of_isDigit h)
  · simp only [List.mem_cons, List.not_mem_nil, or_false] at h
    rcases h with rfl | rfl | rfl | rfl <;> exact .inr (by decide)

/-- Characters of no numeral. -/
theorem IsNumeralChar.ne {c d : Char} (h : IsNumeralChar c) (hd : d.isDigit = false)
    (hmem : d ∉ ['.', 'e', '-', '+']) : c ≠ d := by
  rintro rfl
  rcases h with h | h
  · rw [hd] at h
    cases h
  · exact hmem h

/-- It may stand as it is. -/
theorem IsNumeralChar.isRaw {c : Char} (h : IsNumeralChar c) : isRaw c = true := by
  have hrange : 0x20 ≤ c.toNat ∧ c.toNat ≤ 0x7E := by
    have htoNat := h.toNat
    simp only [List.mem_cons, List.not_mem_nil, or_false] at htoNat
    omega
  simp [Yaml.isRaw, hrange]

/-- It is no break. -/
theorem IsNumeralChar.isBreak {c : Char} (h : IsNumeralChar c) : isBreak c = false := by
  simp [Yaml.isBreak, h.ne (d := '\n') rfl (by decide), h.ne (d := '\x85') rfl (by decide),
    h.ne (d := '\u2028') rfl (by decide), h.ne (d := '\u2029') rfl (by decide)]

variable {negative : Bool} {p : Numeral.Parts}

/-- A numeral with its sign has no other characters. -/
theorem isNumeralChar_of_mem {c : Char} (h : c ∈ signText negative ++ p.text) : IsNumeralChar c := by
  rw [signText, List.mem_append] at h
  rcases h with h | h
  · split at h
    · rw [List.mem_singleton.mp h]
      exact .inr (by decide)
    · cases h
  · exact p.mem_text h

/-! ## Plain style -/

/-- Without a colon and a hash there is no indicator inside. -/
theorem holdsIndicator_of_notMem {cs : List Char} (hcolon : ':' ∉ cs) (hhash : '#' ∉ cs) :
    Style.holdsIndicator cs = false := by
  fun_induction Style.holdsIndicator cs with
  | case1 a b r ih =>
    obtain ⟨-, hcolon⟩ := not_or.mp (mt List.mem_cons.mpr hcolon)
    obtain ⟨-, hhash⟩ := not_or.mp (mt List.mem_cons.mpr hhash)
    have hb : b ≠ ':' ∧ b ≠ '#' := by
      constructor
      · rintro rfl
        exact hcolon List.mem_cons_self
      · rintro rfl
        exact hhash List.mem_cons_self
    simp [hb, ih hcolon hhash]
  | case2 => rfl

/-- A numeral starts with a digit, or a minus sign and a digit. -/
theorem exists_numeral_cons (negative : Bool) (p : Numeral.Parts) :
    ∃ d t, d.isDigit = true ∧ signText negative ++ p.text = signText negative ++ d :: t ∧ p.text = d :: t := by
  obtain ⟨d, t, hd, htext⟩ := p.text_eq_cons
  exact ⟨d, t, hd, by rw [htext], htext⟩

/-- A digit is no blank. -/
theorem blankFollows_of_isDigit {d : Char} (hd : d.isDigit = true) (t : List Char) :
    Style.blankFollows (d :: t) = false := by
  have hchar : IsNumeralChar d := .inl hd
  rw [Style.blankFollows, isBlankOrBreak_of_isRaw hchar.isRaw, hchar.isBreak, Bool.or_false]
  exact decide_eq_false (hchar.ne rfl (by decide))

/-- A numeral is safe in plain style. -/
theorem plainSafe_numeral (negative : Bool) (p : Numeral.Parts) :
    Style.PlainSafe (signText negative ++ p.text) := by
  have hchar : ∀ c ∈ signText negative ++ p.text, IsNumeralChar c := fun c => isNumeralChar_of_mem
  have hblank : ' ' ∉ signText negative ++ p.text := fun hmem =>
    (hchar ' ' hmem).ne (d := ' ') rfl (by decide) rfl
  obtain ⟨d, t, hd, htext, -⟩ := exists_numeral_cons negative p
  have hdigit : IsNumeralChar d := .inl hd
  refine ⟨fun c hc => (hchar c hc).isRaw, fun c hc => (hchar c hc).isBreak,
    fun hfirst => hblank (List.mem_of_mem_head? hfirst), fun hlast => hblank (List.mem_of_getLast? hlast),
    ?_, holdsIndicator_of_notMem ?_ ?_, ?_⟩
  · rw [htext]
    have hfollows := blankFollows_of_isDigit hd t
    cases negative with
    | true => simp [signText, Style.startsAsIndicator, hfollows, Style.leadingIndicators]
    | false =>
      have hleading : d ∉ Style.leadingIndicators := fun hmem => by
        have hnone : ∀ c ∈ Style.leadingIndicators, c.isDigit = false :=
          Text.forall_mem_of_all (by decide)
        rw [hnone d hmem] at hd
        cases hd
      have hsign : d ≠ '?' ∧ d ≠ ':' ∧ d ≠ '-' := by
        refine ⟨?_, ?_, ?_⟩ <;> rintro rfl <;> cases hd
      simp [signText, Style.startsAsIndicator, hleading, hsign]
  · exact fun hmem => (hchar ':' hmem).ne (d := ':') rfl (by decide) rfl
  · exact fun hmem => (hchar '#' hmem).ne (d := '#') rfl (by decide) rfl
  · rw [htext]
    unfold Style.startsDocument
    cases negative with
    | true =>
      split
      · next heq => cases heq; cases hd
      · next heq => cases heq
      · rfl
    | false =>
      split
      · next heq => cases heq; cases hd
      · next heq => cases heq; cases hd
      · rfl

/-! ## Kinds -/

/-- A text of one line is resolved as it stands. -/
theorem resolve_of_notMem {cs : List Char} (hne : cs ≠ []) (hline : '\n' ∉ cs) :
    resolve cs = resolveLine cs := by
  have hlast : cs.getLast? ≠ some '\n' := fun h => hline (List.mem_of_getLast? h)
  unfold resolve
  split
  · exact absurd rfl hne
  · exact absurd List.mem_cons_self hline
  · rw [if_neg hlast]

/-- The sign is taken off. -/
theorem unsigned_numeral (negative : Bool) (p : Numeral.Parts) :
    Plain.unsigned (signText negative ++ p.text) = p.text := by
  cases negative with
  | true => rfl
  | false =>
    obtain ⟨d, t, hd, -, htext⟩ := exists_numeral_cons false p
    rw [signText, if_neg Bool.false_ne_true, List.nil_append, htext]
    unfold Plain.unsigned
    split
    · next heq => cases heq; cases hd
    · next heq => cases heq; cases hd
    · rfl

/-- The word starts as a numeral may. -/
def startsLikeNumeral (word : List Char) : Bool := word.head?.any fun c => c.isDigit || c = '-'

/-- A word that starts otherwise is no numeral. -/
theorem ne_numeral (negative : Bool) (p : Numeral.Parts) {word : List Char}
    (hword : startsLikeNumeral word = false) : word ≠ signText negative ++ p.text := by
  rintro rfl
  obtain ⟨d, t, hd, htext, -⟩ := exists_numeral_cons negative p
  rw [htext] at hword
  cases negative with
  | true => cases hword
  | false =>
    have hstarts : startsLikeNumeral (d :: t) = true := by simp [startsLikeNumeral, hd]
    exact absurd (hstarts.symm.trans hword) (by decide)

/-- No numeral is one of some words that start otherwise. -/
theorem numeral_notMem (negative : Bool) (p : Numeral.Parts) {words : List (List Char)}
    (hwords : ∀ w ∈ words, startsLikeNumeral w = false) : signText negative ++ p.text ∉ words :=
  fun hmem => ne_numeral negative p (hwords _ hmem) rfl

/-- No numeral is a word for a boolean. -/
theorem isBoolWord_numeral (negative : Bool) (p : Numeral.Parts) :
    (Plain.boolWords.any fun w => decide (w.1.toList = signText negative ++ p.text)) = false := by
  rw [List.any_eq_false]
  intro w hw
  have hhead : ∀ w ∈ Plain.boolWords, startsLikeNumeral w.1.toList = false := by decide
  simpa using ne_numeral negative p (hhead w hw)

/-- Behind the whole digits of a numeral stand its point and its exponent. -/
theorem dropWhile_numeral {d : Char} {t : List Char} (htext : p.text = d :: t) :
    t.dropWhile Plain.isDigitOrGap = p.pointText ++ p.exponentMark := by
  obtain ⟨w, ws, hw⟩ := List.exists_cons_of_ne_nil p.whole_ne
  have hdigits : ∀ c ∈ ws, Plain.isDigitOrGap c = true := fun c hc => by
    rw [Plain.isDigitOrGap, p.whole_digits c (by rw [hw]; exact List.mem_cons_of_mem _ hc), Bool.true_or]
  have hstop : ∀ c ∈ (p.pointText ++ p.exponentMark).head?, Plain.isDigitOrGap c = false := by
    intro c hc
    rcases p.head_behind_whole hc with rfl | rfl <;> decide
  rw [Numeral.Parts.text, hw, List.cons_append] at htext
  cases htext
  exact Text.dropWhile_append_of_stop hdigits hstop

/-- An exponent is one that YAML knows, with its sign. -/
theorem isExponent_exponentMark (p : Numeral.Parts) : Plain.isExponent p.exponentMark = true := by
  rcases p.exponentMark_cases with he | ⟨sign, ds, hsign, hne, hdigits, he⟩
  · rw [he]
    rfl
  · have hall : ds.all Char.isDigit = true := List.all_eq_true.mpr hdigits
    have hempty : ds.isEmpty = false := List.isEmpty_eq_false_iff.mpr hne
    rw [he, Plain.isExponent, Plain.isSome, hall, hempty]
    rcases hsign with rfl | rfl <;> rfl

/-- A numeral with a fraction is a double. -/
theorem isFloat_of_fraction (hfraction : p.fraction ≠ []) :
    Plain.isFloat (signText negative ++ p.text) = true := by
  obtain ⟨d, t, hd, -, htext⟩ := exists_numeral_cons negative p
  have hdrop := dropWhile_numeral htext
  rw [Numeral.Parts.pointText, if_neg hfraction, List.cons_append] at hdrop
  have hbehind : (p.fraction ++ p.exponentMark).dropWhile Plain.isDigitOrGap = p.exponentMark := by
    refine Text.dropWhile_append_of_stop (fun c hc => ?_) fun c hc => ?_
    · rw [Plain.isDigitOrGap, p.fraction_digits c hc, Bool.true_or]
    · rw [p.head_exponentMark hc]
      rfl
  unfold Plain.isFloat
  rw [unsigned_numeral, htext]
  dsimp only
  rw [hdrop, hd, Bool.true_and]
  change (Plain.isExponent _ || _ || _ || _) = true
  rw [hbehind, isExponent_exponentMark]
  rfl

/-- A numeral with a fraction counts as a double. -/
theorem resolve_of_fraction (hfraction : p.fraction ≠ []) :
    resolve (signText negative ++ p.text) = .float := by
  have hchar : ∀ c ∈ signText negative ++ p.text, IsNumeralChar c := fun c => isNumeralChar_of_mem
  obtain ⟨d, t, -, htext, -⟩ := exists_numeral_cons negative p
  rw [resolve_of_notMem (by rw [htext]; simp) fun hmem => (hchar _ hmem).ne (d := '\n') rfl (by decide) rfl,
    resolveLine, isBoolWord_numeral, if_neg Bool.false_ne_true, isFloat_of_fraction hfraction, if_pos rfl]

section Whole

variable {n : Nat}

/-- Behind its first digit a natural number has digits only. -/
theorem dropWhile_natText {d : Char} {t : List Char} (htext : natText n = d :: t) :
    t.dropWhile Plain.isDigitOrGap = [] := by
  rw [← Numeral.text_ofNat] at htext
  exact dropWhile_numeral htext

/-- The digits of a number are no double. -/
theorem isFloat_natText (negative : Bool) (n : Nat) :
    Plain.isFloat (signText negative ++ natText n) = false := by
  have hunsigned := unsigned_numeral negative (Numeral.ofNat n)
  obtain ⟨d, t, hd, -, htext⟩ := exists_numeral_cons negative (Numeral.ofNat n)
  have hinfinity : signText false ++ (Numeral.ofNat n).text ∉
      [".inf".toList, ".Inf".toList, ".INF".toList] := numeral_notMem false _ (by decide)
  have hnan : signText negative ++ (Numeral.ofNat n).text ∉
      [".nan".toList, ".NaN".toList, ".NAN".toList] := numeral_notMem negative _ (by decide)
  rw [Numeral.text_ofNat] at hunsigned htext hinfinity hnan
  rw [signText, if_neg Bool.false_ne_true, List.nil_append] at hinfinity
  have hfront : ∀ c r, signText negative ++ natText n ≠ '.' :: c :: r := by
    intro c r heq
    rw [htext] at heq
    cases negative with
    | true => cases heq
    | false => cases heq; cases hd
  unfold Plain.isFloat
  rw [hunsigned]
  dsimp only
  rw [decide_eq_false hinfinity, decide_eq_false hnan, Bool.or_false, Bool.or_false,
    Bool.or_eq_false_iff]
  constructor
  · rw [htext]
    dsimp only
    rw [dropWhile_natText htext, Bool.and_eq_false_iff]
    exact .inr rfl
  · split
    · next heq => exact absurd heq (hfront _ _)
    · rfl

/-- An integer looks like one. -/
theorem isInt_natText (negative : Bool) (n : Nat) :
    Plain.isInt (signText negative ++ natText n) = true := by
  have hunsigned := unsigned_numeral negative (Numeral.ofNat n)
  rw [Numeral.text_ofNat] at hunsigned
  rw [Plain.isInt, hunsigned]
  rcases Nat.eq_zero_or_pos n with rfl | hn
  · rfl
  · obtain ⟨d, t, hd, -, htext⟩ := exists_numeral_cons negative (Numeral.ofNat n)
    rw [Numeral.text_ofNat] at htext
    have hzero : d ≠ '0' := by
      have hhead := head_natText_ne_zero hn
      rw [htext] at hhead
      simpa using hhead
    have hdrop := dropWhile_natText htext
    rw [htext]
    split
    · next heq => cases heq; exact absurd rfl hzero
    · next heq => cases heq; exact absurd rfl hzero
    · next heq => cases heq; exact absurd rfl hzero
    · next heq =>
      cases heq
      rw [hd, hdrop]
      rfl
    · next heq => cases heq

/-- An integer is written as its sign and its magnitude. -/
theorem intText_eq (i : Int) : intText i = signText (i < 0) ++ natText i.natAbs := by
  simp [intText, signText]

/-- The digits of an integer count as an integer. -/
theorem resolve_intText (i : Int) : resolve (intText i) = .int := by
  have hchar : ∀ c ∈ signText (i < 0) ++ (Numeral.ofNat i.natAbs).text, IsNumeralChar c :=
    fun c => isNumeralChar_of_mem
  have hbool := isBoolWord_numeral (i < 0) (Numeral.ofNat i.natAbs)
  rw [Numeral.text_ofNat] at hchar hbool
  rw [intText_eq, resolve_of_notMem (by simp [natText_ne_nil]) fun hmem =>
    (hchar _ hmem).ne (d := '\n') rfl (by decide) rfl, resolveLine, hbool, if_neg Bool.false_ne_true,
    isFloat_natText, if_neg Bool.false_ne_true, isInt_natText, if_pos rfl]

end Whole

/-! ## Values -/

/-- The sign is told from the magnitude. -/
theorem splitSign_numeral (negative : Bool) (p : Numeral.Parts) :
    Whole.splitSign (signText negative ++ p.text) = (negative, p.text) := by
  cases negative with
  | true => rfl
  | false =>
    obtain ⟨d, t, hd, -, htext⟩ := exists_numeral_cons false p
    rw [signText, if_neg Bool.false_ne_true, List.nil_append, htext]
    unfold Whole.splitSign
    split
    · next heq => cases heq; cases hd
    · next heq => cases heq; cases hd
    · rfl

/-- The digits of a number are the magnitude of an integer. -/
theorem magnitude_natText {n : Nat} (hn : (natText n).length ≤ digitLimit) :
    Numeral.magnitude (natText n) = .ok n := by
  rcases Nat.eq_zero_or_pos n with rfl | hpos
  · rfl
  · have hhead := head_natText_ne_zero hpos
    have hcolon : (natText n).contains ':' = false := by
      rw [Bool.eq_false_iff]
      intro hmem
      have hdigit := isDigit_of_mem_natText (List.contains_iff_mem.mp hmem)
      cases hdigit
    have hread := Whole.read_natText hn
    unfold Numeral.magnitude
    split
    · next heq => exact absurd heq (natText_ne_nil n)
    · next heq => rw [heq] at hhead; exact absurd rfl hhead
    · next heq => rw [heq] at hhead; exact absurd rfl hhead
    · next heq => rw [heq] at hhead; exact absurd rfl hhead
    · next heq => rw [heq] at hhead; exact absurd rfl hhead
    · rw [hcolon, if_neg Bool.false_ne_true, Numeral.inTen, hread]

/-- A numeral has no underscores. -/
theorem withoutGaps_numeral (negative : Bool) (p : Numeral.Parts) :
    Numeral.withoutGaps (signText negative ++ p.text) = signText negative ++ p.text := by
  refine List.filter_eq_self.mpr fun c hc => decide_eq_true ?_
  exact (isNumeralChar_of_mem hc).ne rfl (by decide)

/-- An integer is read back from its digits. -/
theorem toInt_intText {i : Int} (hi : (natText i.natAbs).length ≤ digitLimit) :
    Numeral.toInt (intText i) = .ok i := by
  have hgaps := withoutGaps_numeral (i < 0) (Numeral.ofNat i.natAbs)
  have hsign := splitSign_numeral (i < 0) (Numeral.ofNat i.natAbs)
  rw [Numeral.text_ofNat, ← intText_eq] at hgaps hsign
  have hne : intText i ≠ [] := by simp [intText, natText_ne_nil]
  unfold Numeral.toInt
  rw [hgaps]
  split
  · next heq => exact absurd heq hne
  · rw [hsign]
    dsimp only
    rw [magnitude_natText hi]
    dsimp only [bind, Except.bind]
    refine congrArg Except.ok ?_
    by_cases hnegative : i < 0
    · rw [if_pos (decide_eq_true hnegative)]
      omega
    · rw [if_neg (by simpa using hnegative)]
      omega

/-! ## Doubles -/

section Exponent

variable {e : Int}

/-- The numeral with a zero behind its point. -/
def withZero (p : Numeral.Parts) : Numeral.Parts :=
  ⟨p.whole, ['0'], p.exponent, p.whole_ne, p.whole_digits, by simp⟩

/-- Without a fraction the exponent stands behind the whole part. -/
theorem text_of_exponent (hfraction : p.fraction = []) (he : p.exponent = some e) :
    p.text = p.whole ++ 'e' :: Binary64.exponentText e := by
  rw [Numeral.Parts.text, Numeral.Parts.pointText, Numeral.Parts.exponentMark, if_pos hfraction, he,
    List.nil_append]

/-- The mark of the exponent stands once, and there is no point. -/
theorem notMem_exponent (negative : Bool) (p : Numeral.Parts) (e : Int) {c : Char} (hc : c.isDigit = false)
    (hminus : c ≠ '-') (hplus : c ≠ '+') :
    c ∉ signText negative ++ p.whole ∧ c ∉ Binary64.exponentText e := by
  constructor
  · intro hmem
    rw [signText, List.mem_append] at hmem
    rcases hmem with hmem | hmem
    · split at hmem
      · exact hminus (List.mem_singleton.mp hmem)
      · cases hmem
    · rw [p.whole_digits c hmem] at hc
      cases hc
  · intro hmem
    obtain ⟨ds, -, hdigits, -, htext⟩ := Numeral.exponentText_eq e
    rw [htext, List.mem_cons] at hmem
    rcases hmem with hmem | hmem
    · split at hmem
      · exact hminus hmem
      · exact hplus hmem
    · rw [hdigits c hmem] at hc
      cases hc

/-- A numeral with an exponent and no fraction gets one. -/
theorem replaceChar_exponent (hfraction : p.fraction = []) (he : p.exponent = some e) :
    Text.replaceChar 'e' ['.', '0', 'e'] (signText negative ++ p.text) =
      signText negative ++ (withZero p).text := by
  obtain ⟨hfront, hback⟩ := notMem_exponent negative p e (c := 'e') rfl (by decide) (by decide)
  have hmark : Text.replaceChar 'e' ['.', '0', 'e'] ('e' :: Binary64.exponentText e) =
      ['.', '0', 'e'] ++ Binary64.exponentText e := by
    have hsplit : 'e' :: Binary64.exponentText e = ['e'] ++ Binary64.exponentText e := rfl
    rw [hsplit, Text.replaceChar_append, Text.replaceChar_of_notMem hback]
    rfl
  rw [text_of_exponent hfraction he, ← List.append_assoc, Text.replaceChar_append,
    Text.replaceChar_of_notMem hfront, hmark, List.append_assoc]
  simp [withZero, Numeral.Parts.text, Numeral.Parts.pointText, Numeral.Parts.exponentMark, he]

/-- Such a numeral has no dot. -/
theorem contains_exponent (hfraction : p.fraction = []) (he : p.exponent = some e) :
    (signText negative ++ p.text).contains '.' = false := by
  obtain ⟨hfront, hback⟩ := notMem_exponent negative p e (c := '.') rfl (by decide) (by decide)
  rw [Bool.eq_false_iff]
  intro hmem
  rw [List.contains_iff_mem, text_of_exponent hfraction he, ← List.append_assoc, List.mem_append,
    List.mem_cons] at hmem
  rcases hmem with hmem | hmem | hmem
  · exact hfront hmem
  · cases hmem
  · exact hback hmem

/-- The zero behind the point changes nothing. -/
theorem roundsToRank_withZero {r : Nat} (hfraction : p.fraction = []) :
    Binary64.roundsToRank r (withZero p).decimal = Binary64.roundsToRank r p.decimal := by
  have hvalue : Nat.ofDigitChars 10 (p.whole ++ ['0']) 0 = Nat.ofDigitChars 10 p.whole 0 * 10 ^ 1 := by
    rw [Nat.ofDigitChars_append, Nat.ofDigitChars_cons, Nat.ofDigitChars_nil]
    simp [Nat.mul_comm]
  have hmul := Binary64.roundsToRank_mul_pow r (Nat.ofDigitChars 10 p.whole 0) 1 (p.exponent.getD 0)
  rw [Numeral.Parts.decimal, Numeral.Parts.decimal, hfraction, withZero]
  simpa [hvalue] using hmul

end Exponent

/-- A finite double is written as a numeral with a fraction, which reads back as its magnitude. -/
theorem exists_numeral_floatText (negative : Bool) (r : Fin rankLimit) :
    ∃ p : Numeral.Parts, Writer.floatText (.finite negative r) = signText negative ++ p.text ∧
      p.fraction ≠ [] ∧ ∀ negative, Binary64.ofDecimal negative p.decimal = .finite negative r := by
  by_cases hr : r.val = 0
  · obtain rfl : r = ⟨0, by decide⟩ := Fin.ext hr
    refine ⟨⟨['0'], ['0'], none, by simp, by simp, by simp⟩, ?_, by simp,
      fun negative => Binary64.ofDecimal_zero negative _⟩
    cases negative <;> rfl
  · have hpos := Nat.pos_of_ne_zero hr
    obtain ⟨p, htext, hround⟩ := Binary64.exists_parts_magnitudeText hpos
    have hwritten : (Binary64.finite negative r).textWith "nan" "inf" = signText negative ++ p.text := by
      rw [Binary64.textWith, htext, signText]
    by_cases hfraction : p.fraction = []
    · -- then there is an exponent, and a point and a zero are put before its mark
      obtain ⟨e, he⟩ := Option.ne_none_iff_exists'.mp
        ((Binary64.isBroken_of_magnitudeText hpos htext).resolve_left (not_not_intro hfraction))
      refine ⟨withZero p, ?_, by simp [withZero], Binary64.ofDecimal_of_roundsToRank hpos ?_⟩
      · rw [Writer.floatText, hwritten, contains_exponent hfraction he, if_neg Bool.false_ne_true,
          replaceChar_exponent hfraction he]
      · rw [roundsToRank_withZero hfraction, hround]
    · refine ⟨p, ?_, hfraction, Binary64.ofDecimal_of_roundsToRank hpos hround⟩
      have hpoint : (signText negative ++ p.text).contains '.' = true := by
        rw [List.contains_iff_mem]
        simp [Numeral.Parts.text, Numeral.Parts.pointText, hfraction]
      rw [Writer.floatText, hwritten]
      exact if_pos hpoint

/-- Lower case leaves numerals as they are. -/
theorem map_lowerChar_numeral (negative : Bool) (p : Numeral.Parts) :
    (signText negative ++ p.text).map Text.lowerChar = signText negative ++ p.text := by
  refine (List.map_congr_left fun c hc => ?_).trans (List.map_id _)
  have htoNat := (isNumeralChar_of_mem hc).toNat
  simp only [List.mem_cons, List.not_mem_nil, or_false] at htoNat
  have hascii : c.toNat < 128 := by omega
  have hlower : ¬ (c.val ≥ 'A'.val ∧ c.val ≤ 'Z'.val) := by
    rintro ⟨hlow, hhigh⟩
    have hlow : 65 ≤ c.toNat := hlow
    have hhigh : c.toNat ≤ 90 := hhigh
    omega
  rw [Text.lowerChar, if_pos hascii]
  exact dif_neg hlower

/-- A numeral with a fraction is a decimal numeral. -/
theorem isDecimal_of_fraction (hfraction : p.fraction ≠ []) : Numeral.isDecimal p.text = true := by
  have hne := p.whole_ne
  obtain ⟨htake, hdrop⟩ := p.cut_fraction
  unfold Numeral.isDecimal
  simp only [p.cut_whole, Numeral.Parts.pointText, if_neg hfraction, List.cons_append, htake, hdrop]
  rcases p.exponentMark_cases with he | ⟨sign, ds, hsign, hds, hexponent, he⟩
  · simp [he, hne]
  · have hall : ∀ c ∈ ds, Text.isDigit c = true := fun c hc => isDigit_of_ascii (hexponent c hc)
    rcases hsign with rfl | rfl
    · simpa [he, hne, hds, Whole.splitSign] using hall
    · simpa [he, hne, hds, Whole.splitSign] using hall

/-- A numeral with a fraction is read as the double nearest to its decimal. -/
theorem real_of_fraction (hfraction : p.fraction ≠ []) :
    Numeral.real p.text = .ok (Binary64.ofDecimal false p.decimal) := by
  have hchar : ∀ c ∈ p.text, IsNumeralChar c := fun c hc => p.mem_text hc
  have hstrip : Text.strip p.text = p.text :=
    Text.strip_of_trimmed (Json.trimmed_of_isNumberChar fun c hc => by
      rcases hchar c hc with hc | hc
      · exact Json.isNumberChar_of_isDigit hc
      · simp only [List.mem_cons, List.not_mem_nil, or_false] at hc
        rcases hc with rfl | rfl | rfl | rfl <;> decide)
  have hsign : Whole.splitSign p.text = (false, p.text) := splitSign_numeral false p
  have hword : Numeral.word? p.text = none := by
    have hnot : p.text ∉ ["inf".toList, "infinity".toList, "nan".toList] :=
      numeral_notMem false p (by decide)
    simp only [List.mem_cons, List.not_mem_nil, or_false, not_or] at hnot
    rw [Numeral.word?, if_neg (not_or_intro hnot.1 hnot.2.1), if_neg hnot.2.2]
  have hread : Binary64.ofNumeral p.text = Binary64.ofDecimal false p.decimal := by
    have hread := p.readUnsigned_text
    obtain ⟨d, t, hd, htext⟩ := p.text_eq_cons
    rw [htext] at hread ⊢
    unfold Binary64.ofNumeral
    split
    · next h => cases h; cases hd
    · next h => cases h; cases hd
    · rw [hread]
  rw [Numeral.real, hstrip, hsign]
  dsimp only
  rw [hword, isDecimal_of_fraction hfraction, hread]
  dsimp only
  rw [if_pos rfl, if_neg Bool.false_ne_true]

/-- A numeral is no word for infinity or for no number, and has no parts of sixty. -/
theorem realMagnitude_of_fraction (hfraction : p.fraction ≠ []) :
    Numeral.realMagnitude p.text = .ok (Binary64.ofDecimal false p.decimal) := by
  have hnot : p.text ∉ [".inf".toList, ".nan".toList] := numeral_notMem false p (by decide)
  simp only [List.mem_cons, List.not_mem_nil, or_false, not_or] at hnot
  have hcolon : p.text.contains ':' = false := by
    rw [Bool.eq_false_iff]
    intro hmem
    have hmem : ':' ∈ signText false ++ p.text := List.contains_iff_mem.mp hmem
    exact (isNumeralChar_of_mem hmem).ne (d := ':') rfl (by decide) rfl
  rw [Numeral.realMagnitude, if_neg hnot.1, if_neg hnot.2, hcolon, if_neg Bool.false_ne_true,
    real_of_fraction hfraction]

/-- A finite double is read back from its text. -/
theorem toReal_floatText {x : Binary64} (hx : x.isFinite = true) :
    Numeral.toReal (Writer.floatText x) = .ok x := by
  cases x with
  | nan => cases hx
  | infinite negative => cases hx
  | finite negative r =>
    obtain ⟨p, htext, hfraction, hdecimal⟩ := exists_numeral_floatText negative r
    have hmagnitude := realMagnitude_of_fraction hfraction
    rw [hdecimal] at hmagnitude
    obtain ⟨d, t, -, -, hcons⟩ := exists_numeral_cons negative p
    have hne : signText negative ++ p.text ≠ [] := by
      rw [hcons]
      simp
    rw [htext, Numeral.toReal, withoutGaps_numeral, map_lowerChar_numeral]
    split
    · next heq => exact absurd heq hne
    · rw [splitSign_numeral]
      dsimp only
      rw [hmagnitude]
      cases negative <;> rfl

end DocDesk.Yaml
