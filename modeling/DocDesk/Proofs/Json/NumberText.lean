import DocDesk.Json.Reader
import DocDesk.Proofs.Json.Comparison
import DocDesk.Proofs.Number.Literal

/-!
# Numbers against their own text

Null, booleans and numbers are never compared as texts: of whatever stands on the other side they see
the number that it stands for, and nothing else.  The text of a number stands for that number up to the
sign of zero, also where the text tells of a rounded integer or of an infinity, and so does an array
that wraps the number alone.  Text forms are not taken of arrays nested beyond `formLimit`, though, so that
a number wrapped more often than that is compared with nothing.

Main statements: `holds_congr` and `compare_ownForm`.
-/

namespace DocDesk

namespace Binary64

/-- Two numbers are equal exactly if they have one place in the order. -/
theorem numEq_eq_true_iff {x y : Binary64} :
    x.numEq y = true ↔ x.isNaN = false ∧ x.order? = y.order? := by
  unfold numEq isNaN
  cases x.order? with
  | none => simp
  | some a =>
    cases y.order? with
    | none => simp
    | some b => simp

/-- A double is a number unless it is not one. -/
theorem isNaN_eq_false_iff {x : Binary64} : x.isNaN = false ↔ x ≠ .nan := by
  cases x <;> simp [isNaN, order?]

/-- The double of an integer is a number. -/
theorem isNaN_ofInt (i : Int) : (ofInt i).isNaN = false := by
  rw [ofInt, ofQuotient, ofRank]
  split
  · rfl
  · rfl

end Binary64

namespace Json

/-! ## Operands that are never texts -/

/-- Null, a boolean or a number: what no comparator takes as a text. -/
def isNumeric : Json → Bool
  | .null | .bool _ | .int _ | .float _ => true
  | .str _ | .arr _ | .obj _ => false

/-- A value has the number of its primitive. -/
theorem toNumber_primitive (v : Json) : v.primitive.toNumber = v.toNumber := by
  cases v <;> rfl

section Operands

variable {x y z : Json}

/-- A numeric value is no text. -/
theorem not_bothTexts_of_isNumeric (hx : x.isNumeric = true) : ¬ BothTexts x y := by
  rintro ⟨a, b, ha, -⟩
  cases x with
  | str _ => cases hx
  | arr _ => cases hx
  | obj _ => cases hx
  | _ => simp [primitive] at ha

/-- A numeric value is compared for equality as a number. -/
theorem looseEq_of_isNumeric (hx : x.isNumeric = true) (hnull : x ≠ .null) (hy : y ≠ .null)
    (same : Bool) : looseEq same x y = x.toNumber.numEq y.toNumber := by
  rw [looseEq_of_not_texts same hnull hy (not_bothTexts_of_isNumeric hx), toNumber_primitive,
    toNumber_primitive]

/-- It is compared for order as a number, from either side. -/
theorem looseLt_of_isNumeric (hx : x.isNumeric = true) :
    looseLt x y = x.toNumber.numLt y.toNumber ∧ looseLt y x = y.toNumber.numLt x.toNumber := by
  have hnot : ¬ BothTexts x y := not_bothTexts_of_isNumeric hx
  rw [looseLt_of_not_texts hnot, looseLt_of_not_texts fun h => hnot h.symm, toNumber_primitive,
    toNumber_primitive]
  exact ⟨rfl, rfl⟩

/-- Against null, a boolean or a number, two operands with one place in the order of numbers are as
good as each other, on either side and by every comparator. -/
theorem holds_congr (op : Comparator) (hx : x.isNumeric = true) (hy : y ≠ .null) (hz : z ≠ .null)
    (h : y.toNumber.order? = z.toNumber.order?) (same same' : Bool) :
    op.holds same x y = op.holds same' x z ∧ op.holds same y x = op.holds same' z x := by
  have heq : looseEq same x y = looseEq same' x z := by
    by_cases hnull : x = .null
    · -- null equals none of the two
      subst hnull
      have hne : ∀ {w}, w ≠ .null → ∀ same, looseEq same .null w = false := by
        intro w hw same
        exact Bool.eq_false_iff.mpr fun he => hw (eq_null_of_looseEq he)
      rw [hne hy, hne hz]
    · rw [looseEq_of_isNumeric hx hnull hy, looseEq_of_isNumeric hx hnull hz, Binary64.numEq, h]
      rfl
  have heq' : looseEq same y x = looseEq same' z x :=
    (looseEq_comm same y x).trans (heq.trans (looseEq_comm same' x z))
  have hlt : looseLt x y = looseLt x z := by
    rw [(looseLt_of_isNumeric hx).1, (looseLt_of_isNumeric hx).1, Binary64.numLt, h]
    rfl
  have hgt : looseLt y x = looseLt z x := by
    rw [(looseLt_of_isNumeric hx).2, (looseLt_of_isNumeric hx).2, Binary64.numLt, h]
    rfl
  exact op.holds_both heq heq' hlt hgt

end Operands

/-! ## The forms of a number -/

/-- A number other than the not-a-number value is one as a double as well. -/
theorem isNaN_toNumber {v : Json} (hnumber : v.isNumber = true) (hnan : v ≠ .float .nan) :
    v.toNumber.isNaN = false := by
  cases v with
  | int i => exact Binary64.isNaN_ofInt i
  | float x => exact Binary64.isNaN_eq_false_iff.mpr fun he => hnan (congrArg Json.float he)
  | _ => cases hnumber

/-- The text of a number stands for a number with the same place in the order. -/
theorem order?_textNumber_numberText {x : Binary64} (hnan : x ≠ .nan) :
    (textNumber (String.ofList (numberText x))).order? = x.order? := by
  rw [textNumber_numberText]
  by_cases hzero : x = .finite true ⟨0, by decide⟩
  · -- negative zero is written without its sign
    subst hzero
    rw [numberText_zero true rfl, value_digitZero]
    rfl
  · rw [value_numberText hnan hzero]

/-- The loose text of a number is that of its double. -/
theorem looseText_of_isNumber {v : Json} (h : v.isNumber = true) :
    v.looseText = String.ofList (numberText v.toNumber) := by
  cases v with
  | int i => rfl
  | float x => rfl
  | _ => cases h

/-- As an item every value but null has its form. -/
theorem itemForm_of_ne_null {v : Json} (hv : v ≠ .null) (form : List Char) : itemForm v form = form := by
  cases v with
  | null => exact absurd rfl hv
  | _ => rfl

/-- A value wrapped into arrays that hold nothing else. -/
def wrapped (v : Json) : Nat → Json
  | 0 => v
  | depth + 1 => .arr [v.wrapped depth]

/-- Lists around a value do not change its loose text. -/
theorem looseText_wrapped {v : Json} (hv : v ≠ .null) (depth : Nat) :
    (v.wrapped depth).looseText = v.looseText := by
  induction depth with
  | zero => rfl
  | succ depth ih =>
    have hne : v.wrapped depth ≠ .null := by
      cases depth with
      | zero => exact hv
      | succ depth => rintro ⟨⟩
    rw [← ih, wrapped, looseText, looseChars, looseItems, itemForm_of_ne_null hne, looseText]

/-- The number of a wrapped value is the one that its loose text gives. -/
theorem toNumber_wrapped {v : Json} (hv : v ≠ .null) (depth : Nat) :
    (v.wrapped (depth + 1)).toNumber = textNumber v.looseText := by
  rw [← looseText_wrapped hv (depth + 1)]
  rfl

/-- The literal that a number counts as has the place of the number in the order. -/
theorem order?_ofDouble? {x : Binary64} {v : Json} (h : ofDouble? x = some v) :
    v.toNumber.order? = x.order? := by
  cases v with
  | float y =>
    obtain ⟨rfl, -⟩ := ofDouble?_eq_float h
    rfl
  | int i =>
    rcases ofInt_of_ofDouble? h with ⟨hint, -⟩ | ⟨rfl, rfl⟩
    · rw [toNumber, hint]
    · rw [toNumber, ofInt_zero]
      rfl
  | _ =>
    unfold ofDouble? at h
    split at h
    · cases h
    · split at h
      · split at h <;> cases h
      · cases h

/-- A number literal has the place of its text in the order. -/
theorem order?_numberLiteral? {s : String} {v : Json} (h : numberLiteral? s = some v) :
    v.toNumber.order? = (textNumber s).order? := by
  rw [numberLiteral?_eq] at h
  split at h
  · cases h
  · exact order?_ofDouble? h

/-- A wrapped value that is no array itself is nested as deep as it is wrapped. -/
theorem formDepth_wrapped {v : Json} (hv : v.formDepth = 0) (depth : Nat) :
    (v.wrapped depth).formDepth = depth := by
  induction depth with
  | zero => exact hv
  | succ depth ih => rw [wrapped, formDepth, formDepthItem, formDepthItem, ih, Nat.max_zero]

section Number

variable {v : Json} (hnumber : v.isNumber = true)
include hnumber

/-- A number is a scalar other than null, and takes no array. -/
theorem scalar_of_isNumber : v.isScalar = true ∧ v.isNull = false ∧ v.formDepth = 0 := by
  cases v with
  | int i => exact ⟨rfl, rfl, rfl⟩
  | float x => exact ⟨rfl, rfl, rfl⟩
  | _ => cases hnumber

/-- A number wrapped within reach is compared with what it wraps. -/
theorem compare_number {w : Json} (hreach : w.formDepth ≤ formLimit) (c : Comparator) (same : Bool) :
    c.compare same v w = .ok (c.holds same v w) ∧ c.compare same w v = .ok (c.holds same w v) := by
  obtain ⟨hscalar, hnull, -⟩ := scalar_of_isNumber hnumber
  have hw : w.isOverdeep = false := decide_eq_false (Nat.not_lt.mpr hreach)
  refine ⟨?_, compare_eq_ok hscalar hnull hw⟩
  rw [Comparator.compare, any_formed_comm, any_formed c hscalar hnull, hw]
  rfl

/-- Beyond that no comparator says anything of it, on either side. -/
theorem compare_number_overdeep {w : Json} (hdeep : formLimit < w.formDepth) (c : Comparator)
    (same : Bool) : c.compare same v w = .error {} ∧ c.compare same w v = .error {} := by
  obtain ⟨hscalar, hnull, -⟩ := scalar_of_isNumber hnumber
  have hw : w.isOverdeep = true := decide_eq_true hdeep
  refine ⟨?_, (compare_eq_error_iff hscalar hnull).mpr hw⟩
  rw [Comparator.compare, any_formed_comm, any_formed c hscalar hnull, hw]
  rfl

/-- What comparators say of a number and its forms: equal, on either side, and neither below nor above. -/
theorem holds_ownForm (hnan : v ≠ .float .nan) {w : Json}
    (hw : w = .str v.looseText ∨ ∃ depth, w = v.wrapped (depth + 1)) (same : Bool) :
    Comparator.eq.holds same v w = true ∧ Comparator.eq.holds same w v = true ∧
      Comparator.lt.holds same v w = false ∧ Comparator.gt.holds same v w = false := by
  have hnumeric : v.isNumeric = true := by
    cases v <;> first | rfl | cases hnumber
  have hnull : v ≠ .null := by
    rintro rfl
    cases hnumber
  have hreal := isNaN_toNumber hnumber hnan
  have hown := order?_textNumber_numberText (Binary64.isNaN_eq_false_iff.mp hreal)
  -- the form is as good as the number itself
  have hform : w ≠ .null ∧ w.toNumber.order? = v.toNumber.order? := by
    rw [← looseText_of_isNumber hnumber] at hown
    rcases hw with rfl | ⟨depth, rfl⟩
    · exact ⟨by simp, hown⟩
    · rw [toNumber_wrapped hnull]
      exact ⟨by simp [wrapped], hown⟩
  have hcongr := fun op => holds_congr op hnumeric hform.1 hnull hform.2 same false
  have heq : looseEq false v v = true :=
    (looseEq_of_isNumeric hnumeric hnull hnull false).trans
      (Binary64.numEq_eq_true_iff.mpr ⟨hreal, rfl⟩)
  rw [(hcongr .eq).1, (hcongr .eq).2, (hcongr .lt).1, (hcongr .gt).1]
  exact ⟨heq, heq, looseLt_irrefl v, looseLt_irrefl v⟩

end Number

/-- Read as a number, the text of a number is equal to it.  A number compares equal to its text and to every
array that wraps it alone, on either side, and neither below nor above these, as long as the arrays are
nested no deeper than text forms are taken.  Beyond that no comparison is made. -/
theorem compare_ownForm {v : Json} (hnumber : v.isNumber = true) (hnan : v ≠ .float .nan) :
    (textNumber (String.ofList (numberText v.toNumber))).numEq v.toNumber = true ∧
      (∀ w, w = .str v.looseText ∨ (∃ depth < formLimit, w = v.wrapped (depth + 1)) → ∀ same,
        Comparator.eq.compare same v w = .ok true ∧ Comparator.eq.compare same w v = .ok true ∧
          Comparator.lt.compare same v w = .ok false ∧ Comparator.gt.compare same v w = .ok false) ∧
      ∀ depth, formLimit < depth → ∀ c same,
        Comparator.compare c same v (v.wrapped depth) = .error {} ∧
          Comparator.compare c same (v.wrapped depth) v = .error {} := by
  obtain ⟨-, -, hflat⟩ := scalar_of_isNumber hnumber
  refine ⟨?_, fun w hw same => ?_, fun depth hdeep c same => ?_⟩
  · have hreal := isNaN_toNumber hnumber hnan
    rw [numEq_comm]
    exact Binary64.numEq_eq_true_iff.mpr
      ⟨hreal, (order?_textNumber_numberText (Binary64.isNaN_eq_false_iff.mp hreal)).symm⟩
  · have hreach : w.formDepth ≤ formLimit := by
      rcases hw with rfl | ⟨depth, hdepth, rfl⟩
      · exact Nat.zero_le _
      · rw [formDepth_wrapped hflat]
        exact hdepth
    have hform : w = .str v.looseText ∨ ∃ depth, w = v.wrapped (depth + 1) :=
      hw.imp_right fun ⟨depth, _, he⟩ => ⟨depth, he⟩
    obtain ⟨heq, heq', hlt, hgt⟩ := holds_ownForm hnumber hnan hform same
    have hcompare := fun c => compare_number hnumber hreach c same
    rw [(hcompare .eq).1, (hcompare .eq).2, (hcompare .lt).1, (hcompare .gt).1, heq, heq', hlt, hgt]
    exact ⟨rfl, rfl, rfl, rfl⟩
  · exact compare_number_overdeep hnumber (by rwa [formDepth_wrapped hflat]) c same

/-- An integer that no double holds, and negative zero. -/
theorem compare_ownForm_rounded :
    (Json.int 9007199254740993).isNumber = true ∧ Json.int 9007199254740993 ≠ .float .nan ∧
      (Json.int 9007199254740993).looseText = "9007199254740992" ∧
      Comparator.eq.compare false (.str "9007199254740992") (.int 9007199254740993) = .ok true ∧
      Comparator.gt.compare false (.int 9007199254740993) (.str "9007199254740992") = .ok false ∧
      (Json.float (.finite true ⟨0, by decide⟩)).looseText = "0" ∧
      Comparator.eq.compare false (.float (.finite true ⟨0, by decide⟩))
        (.arr [.arr [.float (.finite true ⟨0, by decide⟩)]]) = .ok true := by
  have hbig : (Json.int 9007199254740993).looseText = "9007199254740992" := by decide +kernel
  have htext := (@compare_ownForm (.int 9007199254740993) rfl (by simp)).2.1 (.str "9007199254740992")
    (.inl (hbig ▸ rfl)) false
  have hzero := (@compare_ownForm (.float (.finite true ⟨0, by decide⟩)) rfl (by simp)).2.1
    (.arr [.arr [.float (.finite true ⟨0, by decide⟩)]]) (.inr ⟨1, by decide, rfl⟩) false
  have hplain : (Json.float (.finite true ⟨0, by decide⟩)).looseText = "0" := by
    rw [looseText_of_isNumber rfl, toNumber, numberText_zero true rfl]
  exact ⟨rfl, by simp, hbig, htext.2.1, htext.2.2.2, hplain, hzero.1⟩

/-- One, wrapped nine hundred times, is not found to be equal to one: there is no answer. -/
theorem compare_wrapped_fails :
    ((Json.int 1).wrapped 900).depth ≤ Reader.depthLimit ∧
      Comparator.eq.compare false (.int 1) ((Json.int 1).wrapped 900) = .error {} ∧
      Comparator.eq.compare false (.int 1) ((Json.int 1).wrapped 900) ≠ .ok true := by
  have hfails := (compare_number_overdeep (v := .int 1) (w := (Json.int 1).wrapped 900) rfl
    (by rw [formDepth_wrapped rfl]; decide) .eq false).1
  refine ⟨by decide +kernel, hfails, ?_⟩
  rw [hfails]
  nofun

end Json

end DocDesk
