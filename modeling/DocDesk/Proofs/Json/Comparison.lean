import DocDesk.Json.Loose
import Mathlib.Data.Char
import Mathlib.Data.Int.Order.Basic
import Mathlib.Data.List.Lex
import Mathlib.Order.Lattice

/-!
# Coherence of loose comparison

Loose equality and loose order are two functions, and each splits the kinds in its own way: equality
looks for null, for two containers and for two booleans first, order for two texts and for nothing
else.  They still agree: two texts are compared as texts by both and anything else as numbers by both,
so that at most one of `<`, `==` and `>` holds, and exactly one where both sides can be compared.

Main statement: `comparators_coherent`.
-/

namespace DocDesk

/-! ## Exactly one of three -/

/-- In a linear order exactly one of below, equal and above holds. -/
theorem count_trichotomy {α : Type} [LinearOrder α] (a b : α) [Decidable (a < b)] [Decidable (a = b)]
    [Decidable (b < a)] : [decide (a < b), decide (a = b), decide (b < a)].count true = 1 := by
  rcases lt_trichotomy a b with h | rfl | h
  · simp [h, h.ne, h.not_gt]
  · simp
  · simp [h, h.ne', h.not_gt]

namespace Binary64

/-- Exactly one of below, equal and above holds of two numbers, and none if one is the not-a-number
value. -/
theorem count_order (x y : Binary64) :
    [x.numLt y, x.numEq y, y.numLt x].count true = if x.isNaN || y.isNaN then 0 else 1 := by
  unfold numLt numEq isNaN
  cases x.order? with
  | none => simp
  | some a =>
    cases y.order? with
    | none => simp
    | some b => simpa using count_trichotomy a b

/-- Of two numbers one at most is less. -/
theorem numLt_asymm {x y : Binary64} (h : x.numLt y = true) : y.numLt x = false := by
  unfold numLt at h ⊢
  cases hx : x.order? with
  | none => simp
  | some a =>
    cases hy : y.order? with
    | none => simp
    | some b =>
      simp only [hx, hy, decide_eq_true_eq, decide_eq_false_iff_not] at h ⊢
      omega

end Binary64

namespace Json

/-! ## Primitive forms -/

/-- The primitive forms of two values are texts. -/
def BothTexts (l r : Json) : Prop := ∃ a b, l.primitive = .str a ∧ r.primitive = .str b

/-- That both are texts does not depend on their order. -/
theorem BothTexts.symm {l r : Json} (h : BothTexts l r) : BothTexts r l := by
  obtain ⟨a, b, hl, hr⟩ := h
  exact ⟨b, a, hr, hl⟩

/-- A scalar is its own primitive. -/
theorem primitive_of_isScalar {v : Json} (h : v.isScalar = true) : v.primitive = v := by
  cases v with
  | arr _ => cases h
  | obj _ => cases h
  | _ => rfl

/-- The primitive of a container is a text. -/
theorem primitive_of_container {v : Json} (h : v.isScalar = false) : ∃ s, v.primitive = .str s := by
  cases v with
  | arr vs => exact ⟨_, rfl⟩
  | obj _ => exact ⟨_, rfl⟩
  | _ => cases h

/-- A primitive is a scalar. -/
theorem isScalar_primitive (v : Json) : v.primitive.isScalar = true := by cases v <;> rfl

/-- A value with a null as its primitive form is null. -/
theorem eq_null_of_primitive {v : Json} (h : v.primitive = .null) : v = .null := by
  cases v <;> first | rfl | cases h

/-! ## What the comparators decide -/

section Operands

variable {l r : Json}

/-- Texts are compared by their characters. -/
theorem looseLt_of_texts {a b : String} (hl : l.primitive = .str a) (hr : r.primitive = .str b) :
    looseLt l r = decide (a.toList < b.toList) := by
  rw [looseLt, hl, hr]

/-- Other values are compared as numbers. -/
theorem looseLt_of_not_texts (h : ¬ BothTexts l r) :
    looseLt l r = l.primitive.toNumber.numLt r.primitive.toNumber := by
  unfold looseLt
  split
  · next a b hl hr => exact absurd ⟨a, b, hl, hr⟩ h
  · rfl

/-- Two values of which one is no container are compared by their primitive forms. -/
theorem looseEq_eq_primitiveEq (same : Bool) (h : l.isScalar = true ∨ r.isScalar = true) :
    looseEq same l r = primitiveEq l.primitive r.primitive := by
  rcases h with h | h <;> simp [looseEq, h]

/-- Booleans and numbers, and texts against them, are equal as numbers. -/
theorem primitiveEq_eq_numEq {a b : Json} (ha : a.isScalar = true) (hb : b.isScalar = true)
    (ha' : a ≠ .null) (hb' : b ≠ .null) (htexts : ∀ s t, ¬ (a = .str s ∧ b = .str t)) :
    primitiveEq a b = a.toNumber.numEq b.toNumber := by
  cases a with
  | null => exact absurd rfl ha'
  | bool x =>
    cases b with
    | null => exact absurd rfl hb'
    | bool y => cases x <;> cases y <;> decide +kernel
    | _ => simp only [primitiveEq]
  | str s =>
    cases b with
    | null => exact absurd rfl hb'
    | str t => exact absurd ⟨rfl, rfl⟩ (htexts s t)
    | _ => simp only [primitiveEq]
  | arr _ => cases ha
  | obj _ => cases ha
  | _ =>
    cases b with
    | null => exact absurd rfl hb'
    | _ => simp only [primitiveEq]

/-- So are they compared for equality, except for null. -/
theorem looseEq_of_not_texts (same : Bool) (hl : l ≠ .null) (hr : r ≠ .null) (h : ¬ BothTexts l r) :
    looseEq same l r = l.primitive.toNumber.numEq r.primitive.toNumber := by
  -- two containers would both be texts
  have hone : l.isScalar = true ∨ r.isScalar = true := by
    by_contra hnone
    simp only [not_or, Bool.not_eq_true] at hnone
    obtain ⟨a, ha⟩ := primitive_of_container hnone.1
    obtain ⟨b, hb⟩ := primitive_of_container hnone.2
    exact h ⟨a, b, ha, hb⟩
  rw [looseEq_eq_primitiveEq same hone]
  refine primitiveEq_eq_numEq (isScalar_primitive l) (isScalar_primitive r) ?_ ?_ ?_
  · exact fun e => hl (eq_null_of_primitive e)
  · exact fun e => hr (eq_null_of_primitive e)
  · exact fun s t hst => h ⟨s, t, hst.1, hst.2⟩

/-- Null equals null alone. -/
theorem eq_null_of_looseEq {same : Bool} (h : looseEq same .null r = true) : r = .null := by
  rw [looseEq_eq_primitiveEq same (.inl rfl)] at h
  cases hp : r.primitive with
  | null => exact eq_null_of_primitive hp
  | _ => rw [hp] at h; cases h

/-- Nothing is below a value that is below it. -/
theorem looseLt_asymm (h : looseLt l r = true) : looseLt r l = false := by
  by_cases ht : BothTexts l r
  · obtain ⟨a, b, hl, hr⟩ := ht
    rw [looseLt_of_texts hl hr, decide_eq_true_iff] at h
    rw [looseLt_of_texts hr hl, decide_eq_false_iff_not]
    exact h.not_gt
  · rw [looseLt_of_not_texts ht] at h
    rw [looseLt_of_not_texts fun hs => ht hs.symm]
    exact Binary64.numLt_asymm h

/-- Nothing is less than itself. -/
theorem looseLt_irrefl (v : Json) : looseLt v v = false := by
  cases h : looseLt v v with
  | false => rfl
  | true => rw [looseLt_asymm h] at h; cases h

/-! ## How many of `<`, `==` and `>` hold -/

/-- The number of comparators among `<`, `==` and `>` that hold. -/
def holding (same : Bool) (l r : Json) : Nat :=
  ([.lt, .eq, .gt].map fun op : Comparator => op.holds same l r).count true

/-- Of three comparisons of texts exactly one holds. -/
theorem holding_of_texts (same : Bool) (hone : l.isScalar = true ∨ r.isScalar = true)
    (ht : BothTexts l r) : holding same l r = 1 := by
  obtain ⟨a, b, hl, hr⟩ := ht
  have heq : looseEq same l r = decide (a.toList = b.toList) := by
    rw [looseEq_eq_primitiveEq same hone, hl, hr]
    simp [primitiveEq, String.toList_inj]
  have hcount := count_trichotomy a.toList b.toList
  simpa only [holding, List.map, Comparator.holds, heq, looseLt_of_texts hl hr,
    looseLt_of_texts hr hl] using hcount

/-- Of three comparisons of numbers one holds, unless one of them is none. -/
theorem holding_of_not_texts (same : Bool) (hl : l ≠ .null) (hr : r ≠ .null) (ht : ¬ BothTexts l r) :
    holding same l r
      = if l.primitive.toNumber.isNaN || r.primitive.toNumber.isNaN then 0 else 1 := by
  rw [← Binary64.count_order]
  simp only [holding, List.map, Comparator.holds, looseEq_of_not_texts same hl hr ht,
    looseLt_of_not_texts ht, looseLt_of_not_texts fun hs => ht hs.symm]

/-- Where equality excludes both orders, at most one of the three holds. -/
theorem holding_le_one_of {same : Bool}
    (h : looseEq same l r = true → looseLt l r = false ∧ looseLt r l = false) :
    holding same l r ≤ 1 := by
  simp only [holding, List.map, Comparator.holds]
  cases heq : looseEq same l r with
  | true => simp [(h heq).1, (h heq).2]
  | false =>
    cases hlt : looseLt l r with
    | true => simp [looseLt_asymm hlt]
    | false => cases looseLt r l <;> simp

/-- At most one of the three holds. -/
theorem holding_le_one {same : Bool} (hsame : same = true → l = r) : holding same l r ≤ 1 := by
  -- null and two containers are what equality decides without a look at texts and numbers
  by_cases hl : l = .null
  · subst hl
    refine holding_le_one_of fun heq => ?_
    rw [eq_null_of_looseEq heq]
    exact ⟨looseLt_irrefl _, looseLt_irrefl _⟩
  by_cases hr : r = .null
  · subst hr
    refine holding_le_one_of fun heq => ?_
    have hnull : looseEq same .null l = true := (looseEq_comm same .null l).trans heq
    rw [eq_null_of_looseEq hnull]
    exact ⟨looseLt_irrefl _, looseLt_irrefl _⟩
  by_cases hone : l.isScalar = true ∨ r.isScalar = true
  · by_cases ht : BothTexts l r
    · exact (holding_of_texts same hone ht).le
    · rw [holding_of_not_texts same hl hr ht]
      split <;> omega
  · refine holding_le_one_of fun heq => ?_
    have hboth : looseEq same l r = same := by simp_all [looseEq]
    rw [hsame (hboth.symm.trans heq)]
    exact ⟨looseLt_irrefl _, looseLt_irrefl _⟩

/-- What holds by a comparator depends on equality and the order alone, on either side. -/
theorem Comparator.holds_both (op : Comparator) {same same' : Bool} {l r l' r' : Json}
    (heq : looseEq same l r = looseEq same' l' r') (heq' : looseEq same r l = looseEq same' r' l')
    (hlt : looseLt l r = looseLt l' r') (hgt : looseLt r l = looseLt r' l') :
    op.holds same l r = op.holds same' l' r' ∧ op.holds same r l = op.holds same' r' l' := by
  cases op with
  | eq => exact ⟨heq, heq'⟩
  | ne => exact ⟨congrArg (!·) heq, congrArg (!·) heq'⟩
  | lt => exact ⟨hlt, hgt⟩
  | gt => exact ⟨hgt, hlt⟩

/-- A container stands for its primitive form on either side of a value that is none. -/
theorem holds_primitive (op : Comparator) (same same' : Bool) (hr : r.isScalar = true) :
    op.holds same l r = op.holds same' l.primitive r ∧
      op.holds same r l = op.holds same' r l.primitive := by
  have hidem : l.primitive.primitive = l.primitive := primitive_of_isScalar (isScalar_primitive l)
  have heq : looseEq same l r = looseEq same' l.primitive r := by
    rw [looseEq_eq_primitiveEq same (.inr hr), looseEq_eq_primitiveEq same' (.inr hr), hidem]
  have heq' : looseEq same r l = looseEq same' r l.primitive := by
    rw [looseEq_eq_primitiveEq same (.inl hr), looseEq_eq_primitiveEq same' (.inl hr), hidem]
  have hlt : looseLt l r = looseLt l.primitive r := by rw [looseLt, looseLt, hidem]
  have hgt : looseLt r l = looseLt r l.primitive := by rw [looseLt, looseLt, hidem]
  exact op.holds_both heq heq' hlt hgt

end Operands

/-- What the four comparators promise of two operands; `same` says that these are one and the same
container. -/
structure Coherent (same : Bool) (l r : Json) : Prop where
  /-- Equality does not depend on the order of the operands. -/
  eq_comm : Comparator.eq.holds same l r = Comparator.eq.holds same r l
  /-- Above is below with the operands exchanged. -/
  gt_swap : Comparator.gt.holds same l r = Comparator.lt.holds same r l
  /-- Nothing is below itself, whether it meets itself or a copy. -/
  lt_irrefl : ∀ same', Comparator.lt.holds same' l l = false
  /-- Two values are not below each other. -/
  lt_asymm : ¬ (Comparator.lt.holds same l r = true ∧ Comparator.lt.holds same r l = true)
  /-- No two of `<`, `==` and `>` hold together. -/
  at_most_one : holding same l r ≤ 1
  /-- Of two texts, exactly one of the three holds. -/
  one_of_texts : l ≠ .null → r ≠ .null → l.isScalar = true ∨ r.isScalar = true → BothTexts l r →
    holding same l r = 1
  /-- Of operands that both stand for numbers, exactly one of the three holds. -/
  one_of_numbers : l ≠ .null → r ≠ .null → ¬ BothTexts l r →
    l.primitive.toNumber.isNaN = false → r.primitive.toNumber.isNaN = false → holding same l r = 1
  /-- If one operand stands for no number, none of the three holds, and `!=` does. -/
  none_of_nan : l ≠ .null → r ≠ .null → ¬ BothTexts l r →
    l.primitive.toNumber.isNaN = true ∨ r.primitive.toNumber.isNaN = true →
    holding same l r = 0 ∧ Comparator.ne.holds same l r = true
  /-- A container against anything else is as good as its primitive form. -/
  container : l.isScalar = false → r.isScalar = true → ∀ op : Comparator, ∀ same',
    op.holds same l r = op.holds same' l.primitive r ∧
      op.holds same r l = op.holds same' r l.primitive

/-- The four comparators are coherent on all operands. -/
theorem comparators_coherent {same : Bool} {l r : Json} (hsame : same = true → l = r) :
    Coherent same l r where
  eq_comm := looseEq_comm same l r
  gt_swap := gt_eq_lt_swap same l r
  lt_irrefl _ := looseLt_irrefl l
  lt_asymm := by
    rintro ⟨hlr, hrl⟩
    have hno : looseLt r l = false := looseLt_asymm hlr
    cases hno.symm.trans hrl
  at_most_one := holding_le_one hsame
  one_of_texts _ _ hone ht := holding_of_texts same hone ht
  one_of_numbers hl hr ht hx hy := by
    rw [holding_of_not_texts same hl hr ht, hx, hy]
    rfl
  none_of_nan hl hr ht hnan := by
    have hzero : holding same l r = 0 := by
      rw [holding_of_not_texts same hl hr ht, if_pos (Bool.or_eq_true_iff.mpr hnan)]
    refine ⟨hzero, ?_⟩
    -- none of the three holds, equality among them
    rw [holding, List.count_eq_zero] at hzero
    rw [ne_eq_not_eq]
    cases heq : Comparator.eq.holds same l r with
    | false => rfl
    | true => exact absurd (by simp [heq]) hzero
  container _ hr op same' := holds_primitive op same same' hr

/-- An array against itself, an array whose text form writes a number, and one whose text form writes
none. -/
theorem comparators_coherent_arrays :
    (true = true → Json.arr [.float .nan] = .arr [.float .nan]) ∧
      holding true (.arr [.float .nan]) (.arr [.float .nan]) ≤ 1 ∧
      holding false (.arr [.str " 0x10"]) (.int 16) = 1 ∧
      holding false (.arr [.str "x", .null]) (.int 16) = 0 ∧
      Comparator.ne.holds false (.arr [.str "x", .null]) (.int 16) = true := by
  have hself := @comparators_coherent true (.arr [.float .nan]) (.arr [.float .nan]) fun _ => rfl
  have hnumber := @comparators_coherent false (.arr [.str " 0x10"]) (.int 16) fun h => by cases h
  have hword := @comparators_coherent false (.arr [.str "x", .null]) (.int 16) fun h => by cases h
  have htexts : ∀ v, ¬ BothTexts v (.int 16) := by
    rintro v ⟨a, b, -, hb⟩
    cases hb
  have hnone := hword.none_of_nan (by simp) (by simp) (htexts _) (.inl (by decide +kernel))
  refine ⟨fun _ => rfl, hself.at_most_one, ?_, hnone.1, hnone.2⟩
  exact hnumber.one_of_numbers (by simp) (by simp) (htexts _) (by decide +kernel) (by decide +kernel)

end Json

end DocDesk
