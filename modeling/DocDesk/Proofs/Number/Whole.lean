import DocDesk.Proofs.Number.Literal

/-!
# Whole numbers read back

The digits of a number, read as a whole number in free text, are that number.  Main statement:
`read_natText`.
-/

namespace DocDesk.Whole

/-- Without underscores none stands in a wrong place. -/
theorem underscoresBetween_of_notMem {cs : List Char} (h : '_' ∉ cs) : underscoresBetween cs = true := by
  fun_induction underscoresBetween cs with
  | case1 => rfl
  | case2 => exact absurd List.mem_cons_self h
  | case3 => exact absurd List.mem_cons_self h
  | case4 c r _ _ ih => exact ih (not_or.mp (mt List.mem_cons.mpr h)).2

/-- Digits have no sign. -/
theorem splitSign_of_isDigit {cs : List Char} (h : ∀ c ∈ cs, c.isDigit = true) :
    splitSign cs = (false, cs) := by
  unfold splitSign
  split
  · exact absurd (h '-' List.mem_cons_self) (by decide)
  · exact absurd (h '+' List.mem_cons_self) (by decide)
  · rfl

/-- The digits of a number within the limit are read as the number. -/
theorem read_natText {n : Nat} (hn : (natText n).length ≤ digitLimit) :
    read (String.ofList (natText n)) = .ok n := by
  have hdigits : ∀ c ∈ natText n, c.isDigit = true := fun c => isDigit_of_mem_natText
  have hgap : '_' ∉ natText n := fun hmem => by cases hdigits _ hmem
  have hstrip : Text.strip (natText n) = natText n :=
    Text.strip_of_trimmed (Json.trimmed_of_isNumberChar fun c hc => Json.isNumberChar_of_isDigit (hdigits c hc))
  have hnumeral : ∀ c ∈ natText n, isNumeralChar c = true := fun c hc => by
    rw [isNumeralChar, isDigit_of_ascii (hdigits c hc), Bool.true_or]
  have htake : (natText n).takeWhile isNumeralChar = natText n := by
    simpa using Text.takeWhile_append_of_stop (r := []) hnumeral nofun
  have hdrop : (natText n).dropWhile isNumeralChar = [] := by
    simpa using Text.dropWhile_append_of_stop (r := []) hnumeral nofun
  have hfilter : (natText n).filter Text.isDigit = natText n :=
    List.filter_eq_self.mpr fun c hc => isDigit_of_ascii (hdigits c hc)
  have hhead : (natText n).head? ≠ some '_' := fun h => hgap (List.mem_of_mem_head? h)
  have hread := readDigits_eq_ok hdigits hn
  rw [ofDigitChars_natText] at hread
  have hempty : (natText n).isEmpty = false := List.isEmpty_eq_false_iff.mpr (natText_ne_nil n)
  simp only [read, String.toList_ofList, hstrip, splitSign_of_isDigit hdigits, htake, hdrop, hfilter,
    hhead, underscoresBetween_of_notMem hgap, hempty, hread]
  rfl

end DocDesk.Whole
