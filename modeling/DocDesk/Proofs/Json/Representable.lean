import DocDesk.Json.Reader
import DocDesk.Proofs.Json.Everywhere
import DocDesk.Proofs.Number.Digits

/-!
# Documents that JSON text can hold

In a document read from JSON text the names in an object are distinct, integers have few enough digits,
and containers nest no deeper than the reader goes.  The doubles may include infinities.

Main statement: `representable_of_parse`.
-/

namespace DocDesk.Json

/-! ## Numbers -/

/-- An integer has few enough digits to be read back. -/
def OwnIntegerShort : Json → Prop
  | .int i => (natText i.natAbs).length ≤ digitLimit
  | _ => True

instance : DecidablePred OwnIntegerShort
  | .int i => inferInstanceAs (Decidable ((natText i.natAbs).length ≤ digitLimit))
  | .null | .bool _ | .float _ | .str _ | .arr _ | .obj _ => inferInstanceAs (Decidable True)

/-- All integers in the document have few enough digits to be read back. -/
def ShortIntegers : Json → Prop := Everywhere OwnIntegerShort

instance (v : Json) : Decidable (ShortIntegers v) :=
  inferInstanceAs (Decidable (Everywhere OwnIntegerShort v))

/-- A double is neither an infinity nor the not-a-number value. -/
def OwnDoubleFinite : Json → Prop
  | .float x => x.isFinite = true
  | _ => True

instance : DecidablePred OwnDoubleFinite
  | .float x => inferInstanceAs (Decidable (x.isFinite = true))
  | .null | .bool _ | .int _ | .str _ | .arr _ | .obj _ => inferInstanceAs (Decidable True)

/-- All doubles in the document are finite. -/
def FiniteDoubles : Json → Prop := Everywhere OwnDoubleFinite

instance (v : Json) : Decidable (FiniteDoubles v) :=
  inferInstanceAs (Decidable (Everywhere OwnDoubleFinite v))

/-- A scalar has no names. -/
theorem OwnNamesDistinct.of_isScalar {v : Json} (h : v.isScalar = true) : OwnNamesDistinct v := by
  cases v with
  | obj members => cases h
  | _ => trivial

/-- The document fits into JSON text that is read with a given depth. -/
structure FitsDepth (d : Nat) (v : Json) : Prop where
  distinctNames : v.DistinctNames
  shortIntegers : v.ShortIntegers
  depth_le : v.depth ≤ d

/-- The document fits into JSON text. -/
abbrev Representable (v : Json) : Prop := FitsDepth Reader.depthLimit v

namespace FitsDepth

variable {d : Nat}

instance (v : Json) : Decidable (FitsDepth d v) :=
  decidable_of_iff (v.DistinctNames ∧ v.ShortIntegers ∧ v.depth ≤ d)
    ⟨fun h => ⟨h.1, h.2.1, h.2.2⟩, fun h => ⟨h.distinctNames, h.shortIntegers, h.depth_le⟩⟩

/-- A short scalar fits everywhere. -/
theorem of_isScalar {v : Json} (hscalar : v.isScalar = true) (hshort : OwnIntegerShort v) :
    FitsDepth d v where
  distinctNames := .scalar hscalar (OwnNamesDistinct.of_isScalar hscalar)
  shortIntegers := .scalar hscalar hshort
  depth_le := by rw [depth_of_isScalar hscalar]; exact Nat.zero_le d

/-- An array fits one level above its items. -/
theorem arr {items : List Json} (h : ∀ v ∈ items, FitsDepth d v) : FitsDepth (d + 1) (.arr items) where
  distinctNames := .arr trivial fun v hv => (h v hv).distinctNames
  shortIntegers := .arr trivial fun v hv => (h v hv).shortIntegers
  depth_le := by
    rw [depth, Nat.add_le_add_iff_right, depthItem_le_iff]
    exact fun v hv => (h v hv).depth_le

/-- An object of distinct names fits one level above its members. -/
theorem obj {members : List (String × Json)} (hnames : (members.map Prod.fst).Nodup)
    (h : ∀ m ∈ members, FitsDepth d m.2) : FitsDepth (d + 1) (.obj members) where
  distinctNames := .obj hnames fun m hm => (h m hm).distinctNames
  shortIntegers := .obj trivial fun m hm => (h m hm).shortIntegers
  depth_le := by
    rw [depth, Nat.add_le_add_iff_right, depthMember_le_iff]
    exact fun m hm => (h m hm).depth_le

end FitsDepth

/-! ## What is read -/

namespace Reader

/-- What holds of every value that is read holds of items. -/
theorem forall_mem_readItems {P : Json → Prop} {item : List Char → Result Json}
    (hitem : ∀ {cs v r}, item cs = .ok (v, r) → P v) {n : Nat} {cs r : List Char} {vs : List Json}
    (h : readItems item n cs = .ok (vs, r)) : ∀ v ∈ vs, P v := by
  induction n generalizing cs r vs with
  | zero => cases h
  | succ n ih =>
    rw [readItems] at h
    split at h
    · cases h
    · next v s hv =>
      have hfirst := hitem hv
      split at h
      · cases h
        simpa using hfirst
      · split at h
        · next ws t hrest =>
          cases h
          exact List.forall_mem_cons.mpr ⟨hfirst, ih hrest⟩
        · cases h
      · cases h

/-- It holds of members. -/
theorem forall_mem_readMembers {P : Json → Prop} {item : List Char → Result Json}
    (hitem : ∀ {cs v r}, item cs = .ok (v, r) → P v) {n : Nat} {cs r : List Char}
    {ms : List (String × Json)} (h : readMembers item n cs = .ok (ms, r)) : ∀ m ∈ ms, P m.2 := by
  induction n generalizing cs r ms with
  | zero => cases h
  | succ n ih =>
    rw [readMembers] at h
    split at h
    · cases h
    · split at h
      · cases h
      · next v s hv =>
        have hfirst := hitem hv
        split at h
        · cases h
          simpa using hfirst
        · split at h
          · next ws t hrest =>
            cases h
            exact List.forall_mem_cons.mpr ⟨hfirst, ih hrest⟩
          · cases h
        · cases h

/-- The whole part of a number has digits only. -/
theorem wholePart_digits (cs : List Char) : ∀ c ∈ (wholePart cs).1, c.isDigit = true := by
  unfold wholePart
  split
  · simp
  · exact fun c hc => List.all_eq_true.mp (List.all_takeWhile) c hc

/-- Numbers that are read are scalars, and the integers among them have few enough digits. -/
theorem readNumber_ok {cs r : List Char} {v : Json} (h : readNumber cs = .ok (v, r)) :
    v.isScalar = true ∧ OwnIntegerShort v := by
  have hdigits := wholePart_digits (splitMinus cs).2
  simp only [readNumber] at h
  split at h
  · cases h
  · split at h
    · cases h
      exact ⟨rfl, trivial⟩
    · split at h
      · split at h
        · next n hn =>
          cases h
          have hlen := readDigits_ok_iff.mp ⟨n, hn⟩
          rw [readDigits_eq_ok hdigits hlen] at hn
          cases hn
          have hshort := lt_indexLimit_iff.mp (ofDigitChars_lt_indexLimit hdigits hlen)
          refine ⟨rfl, ?_⟩
          dsimp only [OwnIntegerShort]
          split
          · rwa [Int.natAbs_neg, Int.natAbs_natCast]
          · rwa [Int.natAbs_natCast]
        · cases h
      · cases h
        exact ⟨rfl, trivial⟩

/-- A scalar that is read is one, and short. -/
theorem readScalar_ok {cs r : List Char} {v : Json} (h : readScalar cs = .ok (v, r)) :
    v.isScalar = true ∧ OwnIntegerShort v := by
  have hwords : ∀ w ∈ words, ∀ u, w.2 = .ok u → u.isScalar = true ∧ OwnIntegerShort u := by
    simp [words, isScalar, OwnIntegerShort]
  unfold readScalar at h
  cases hword : readWord? cs with
  | none =>
    rw [hword, Option.getD_none] at h
    exact readNumber_ok h
  | some result =>
    rw [hword, Option.getD_some] at h
    obtain ⟨w, hw, hfound⟩ := List.exists_of_findSome?_eq_some hword
    split at hfound
    · cases hfound
      cases hu : w.2 with
      | error f => rw [hu] at h; cases h
      | ok u =>
        have hscalar := hwords w hw u hu
        rw [hu] at h
        cases h
        exact hscalar
    · cases hfound

/-- A document that is read with a depth fits this depth. -/
theorem fitsDepth_of_readValue {d : Nat} {cs r : List Char} {v : Json}
    (h : readValue d cs = .ok (v, r)) : FitsDepth d v := by
  -- on the depth: the reader of a value goes one level down for its items and members
  induction d generalizing cs r v with
  | zero =>
    unfold readValue at h
    split at h
    · split at h
      · cases h
        exact .of_isScalar rfl trivial
      · cases h
    · cases h
    · cases h
    · cases h
    · obtain ⟨hscalar, hshort⟩ := readScalar_ok h
      exact .of_isScalar hscalar hshort
  | succ d ih =>
    unfold readValue at h
    split at h
    · split at h
      · cases h
        exact .of_isScalar rfl trivial
      · cases h
    · dsimp only at h
      split at h
      · cases h
        exact .arr (by simp)
      · split at h
        · next hitems =>
          cases h
          exact .arr (forall_mem_readItems ih hitems)
        · cases h
    · dsimp only at h
      split at h
      · cases h
        exact .obj List.nodup_nil (by simp)
      · split at h
        · next hmembers =>
          cases h
          refine .obj (nodup_ofPairs _) fun m hm => ?_
          exact forall_mem_readMembers ih hmembers m (mem_of_mem_ofPairs hm)
        · cases h
    · cases h
    · obtain ⟨hscalar, hshort⟩ := readScalar_ok h
      exact .of_isScalar hscalar hshort

end Reader

/-- A document that was read from text is representable. -/
theorem representable_of_parse {s source : String} {v : Json} (h : parse s source = .ok v) :
    v.Representable := by
  unfold parse parseChars at h
  split at h
  · next hdoc =>
    cases h
    unfold Reader.readDocument at hdoc
    split at hdoc
    · cases hdoc
    · split at hdoc
      · cases hdoc
      · next hvalue =>
        split at hdoc
        · cases hdoc
          exact Reader.fitsDepth_of_readValue hvalue
        · cases hdoc
  · cases h

end DocDesk.Json
