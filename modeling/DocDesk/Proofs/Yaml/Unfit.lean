import DocDesk.Proofs.Yaml.Fault.Node
import DocDesk.Proofs.Yaml.Origin
import Mathlib.Logic.Relation

/-!
# YAML text without a JSON document

A text that is a YAML document need not have a value: a number in it may be none, a scalar need not stand
for a value of its tag, and a value need not be one that JSON has.  It may also be nested too deep, as it
is written or by what its aliases stand for.  These are the only faults besides those of the form of a
text.

Main statements: `unfit_of_readChars` and `not_unfit_of_readChars`.
-/

namespace DocDesk.Yaml

/-! ## Scalars -/

namespace Valued

/-- The scalar of a node is written like no value of its tag. -/
inductive Misfit (n : Valued) : ValueFault → Prop
  | bool {cs : List Char} {f : ValueFault} :
      n.tag = Tag.core "bool" → n.text = .ok cs → Node.toBool cs = .error f → Misfit n f
  | int {cs : List Char} {f : ValueFault} :
      n.tag = Tag.core "int" → n.text = .ok cs → Numeral.toInt cs = .error f → Misfit n f
  | float {cs : List Char} {f : ValueFault} :
      n.tag = Tag.core "float" → n.text = .ok cs → Numeral.toReal cs = .error f → Misfit n f
  | time {cs : List Char} {f : ValueFault} : n.tag = Tag.core "timestamp" → n.kind = .scalar →
      n.text = .ok cs → Node.toTime cs = .error f → Misfit n f
  | timeOfMapping {cs : List Char} : n.tag = Tag.core "timestamp" → n.kind ≠ .scalar → n.text = .ok cs →
      Misfit n .timestampOfMapping

/-- Placing a fault does not change it. -/
theorem valued_eq_error {r : Except ValueFault Value} {f : ValueFault} {level : Nat}
    (h : Node.valued r = .error (level, .value f)) : r = .error f := by
  cases r with
  | error g =>
    cases h
    rfl
  | ok x => cases h

/-- A scalar whose text makes no value is misfit. -/
theorem misfit_of_ofScalar? {n : Valued} {make : List Char → Except LevelFault Value} {cs : List Char}
    {level : Nat} {f : ValueFault} (hmake : Node.ofScalar? n.tag n.kind n.start = some make)
    (hcs : n.text = .ok cs) (hfault : make cs = .error (level, .value f)) : n.Misfit f := by
  unfold Node.ofScalar? at hmake
  split at hmake
  · -- null
    cases hmake
    cases hfault
  split at hmake
  · next htag =>
    cases hmake
    exact .bool htag hcs (valued_eq_error hfault)
  split at hmake
  · next htag =>
    cases hmake
    exact .int htag hcs (of_map_eq_error (valued_eq_error hfault))
  split at hmake
  · next htag =>
    cases hmake
    exact .float htag hcs (of_map_eq_error (valued_eq_error hfault))
  split at hmake
  · -- str
    cases hmake
    cases hfault
  split at hmake
  · -- binary
    cases hmake
    rw [Node.toBytes] at hfault
    split at hfault
    · cases hfault
    · split at hfault
      · cases hfault
      · cases hfault
  split at hmake
  · next htag =>
    cases hmake
    have htime := valued_eq_error hfault
    split at htime
    · next hkind => exact .time htag hkind hcs htime
    · next hkind =>
      cases htime
      exact .timeOfMapping htag hkind hcs
  · cases hmake

/-- Such a node has no value. -/
theorem Misfit.result {n : Valued} {f : ValueFault} (h : n.Misfit f) (hformed : n.Formed) :
    n.result = .error (here (.value f)) := by
  cases hformed with
  | loop _ htag =>
    cases h with
    | bool h | int h | float h | time h | timeOfMapping h => exact absurd (htag.symm.trans h) (by decide)
  | tagged htagged =>
    rw [htagged, Node.result]
    cases h with
    | bool htag hcs hread =>
      simp only [htag, hcs, show Node.ofScalar? (Tag.core "bool") n.kind n.start =
        some fun cs => Node.valued (Node.toBool cs) from rfl, hread, Node.valued]
    | int htag hcs hread =>
      simp only [htag, hcs, show Node.ofScalar? (Tag.core "int") n.kind n.start =
        some fun cs => Node.valued ((Numeral.toInt cs).map .int) from rfl, hread, Node.valued, Except.map]
    | float htag hcs hread =>
      simp only [htag, hcs, show Node.ofScalar? (Tag.core "float") n.kind n.start =
        some fun cs => Node.valued ((Numeral.toReal cs).map .float) from rfl, hread, Node.valued,
        Except.map]
    | time htag hkind hcs hread =>
      simp only [htag, hcs, show Node.ofScalar? (Tag.core "timestamp") n.kind n.start = some fun cs =>
        Node.valued (if n.kind = .scalar then Node.toTime cs else .error .timestampOfMapping) from rfl,
        if_pos hkind, hread, Node.valued]
    | timeOfMapping htag hkind hcs =>
      simp only [htag, hcs, show Node.ofScalar? (Tag.core "timestamp") n.kind n.start = some fun cs =>
        Node.valued (if n.kind = .scalar then Node.toTime cs else .error .timestampOfMapping) from rfl,
        if_neg hkind, Node.valued]

/-- A node that a value is made of at last: a part, or a part of a part, and so on. -/
abbrev Within (n p : Valued) : Prop := Relation.ReflTransGen Part n p

/-- A node that fails has a misfit scalar within it. -/
theorem hereditary_misfit : Hereditary fun n =>
    ∀ level f, n.result = .error (level, .value f) → ∃ p, n.Within p ∧ p.Misfit f := by
  intro n hformed hparts level f hresult
  cases hformed.failed hresult with
  | malformed hmalformed =>
    obtain ⟨m, hm⟩ := hmalformed
    cases hm
  | scalar hmake hcs hfailed => exact ⟨n, .refl, misfit_of_ofScalar? hmake hcs hfailed⟩
  | part hpart hfailed =>
    obtain ⟨p, hwithin, hmisfit⟩ := hparts _ hpart _ f hfailed
    exact ⟨p, .head hpart hwithin, hmisfit⟩

/-- A node with a value has none but parts with a value. -/
theorem Made.sound_of_part {n p : Valued} {x : Value} (h : n.Made x) (hpart : n.Part p) : p.Sound := by
  cases h with
  | scalar hmake => exact absurd hpart (not_part_of_ofScalar? hmake)
  | list htag hsound =>
    cases hpart with
    | item _ hi => exact hsound _ hi
    | key hother | value hother | pairKey hother | pairValue hother =>
      rw [htag] at hother
      exact absurd hother (by decide)
  | map htag hentries hsound | set htag hentries hsound =>
    cases hpart with
    | key _ hms hm =>
      cases hentries.symm.trans hms
      exact (hsound _ hm).1
    | value _ hms hm =>
      cases hentries.symm.trans hms
      exact (hsound _ hm).2.2
    | item hother | pairKey hother | pairValue hother =>
      rw [htag] at hother
      exact absurd hother (by decide)
  | pairs htag hsound =>
    cases hpart with
    | pairKey _ hi hm => exact (hsound _ hi _ hm).1
    | pairValue _ hi hm => exact (hsound _ hi _ hm).2
    | item hother | key hother | value hother =>
      rcases htag with htag | htag
      · rw [htag] at hother
        exact absurd hother (by decide)
      · rw [htag] at hother
        exact absurd hother (by decide)
  | loop htag =>
    cases hpart with
    | item hother | key hother | value hother | pairKey hother | pairValue hother =>
      rw [htag] at hother
      exact absurd hother (by decide)

/-- A sound node has none. -/
theorem hereditary_fit :
    Hereditary fun n => n.Sound → ∀ p f, n.Within p → ¬p.Misfit f := by
  intro n hformed hparts hsound p f hwithin hmisfit
  rcases Relation.ReflTransGen.cases_head hwithin with rfl | ⟨q, hpart, hwithin⟩
  · unfold Sound at hsound
    rw [hmisfit.result hformed] at hsound
    cases hsound
  · exact hparts q hpart ((hformed.made hsound).sound_of_part hpart) p f hwithin hmisfit

end Valued

/-! ## Values -/

namespace Value

/-- The value is not one that JSON has: an integer in it is too long, a collection is within itself, or the
key of a member has no name. -/
inductive Unwritable : Value → ValueFault → Prop
  | int {i : Int} : digitLimit < (natText i.natAbs).length → Unwritable (.int i) (.unwritable .unwritable)
  | loop : Unwritable .loop .circular
  | item {xs : List Value} {x : Value} {f : ValueFault} : x ∈ xs → Unwritable x f → Unwritable (.list xs) f
  | element {xs : List Value} {x : Value} {f : ValueFault} : x ∈ xs → Unwritable x f → Unwritable (.set xs) f
  | pairKey {ms : List (Value × Value)} {m : Value × Value} {f : ValueFault} :
      m ∈ ms → Unwritable m.1 f → Unwritable (.pairs ms) f
  | pairValue {ms : List (Value × Value)} {m : Value × Value} {f : ValueFault} :
      m ∈ ms → Unwritable m.2 f → Unwritable (.pairs ms) f
  | name {ms : List (Value × Value)} {m : Value × Value} {f : ValueFault} :
      m ∈ ms → m.1.name = .error f → Unwritable (.map ms) f
  | value {ms : List (Value × Value)} {m : Value × Value} {f : ValueFault} :
      m ∈ ms → Unwritable m.2 f → Unwritable (.map ms) f

/-- An integer with too many digits cannot be written. -/
theorem unwritable_of_intText? {i : Int} {f : DigitFault} (h : intText? i = .error f) :
    Unwritable (.int i) (.unwritable f) := by
  rw [intText?] at h
  split at h
  · next hlong =>
    cases h
    exact .int hlong
  · cases h

mutual

/-- A value that has no document holds one that cannot be written. -/
theorem unwritable_of_toJson {x : Value} {f : ValueFault} (h : x.toJson = .error f) : x.Unwritable f := by
  match x with
  | .null | .bool _ | .float _ | .str _ | .bytes _ | .time _ => cases h
  | .int i =>
    rw [toJson] at h
    split at h
    · cases h
    · next hlong =>
      cases h
      exact unwritable_of_intText? hlong
  | .list xs =>
    rw [toJson] at h
    rcases error_of_bind_eq_error h with h | ⟨vs, -, h⟩
    · obtain ⟨x, hx, hfault⟩ := exists_of_itemsToJson h
      exact .item hx hfault
    · cases h
  | .set xs =>
    rw [toJson] at h
    rcases error_of_bind_eq_error h with h | ⟨vs, -, h⟩
    · obtain ⟨x, hx, hfault⟩ := exists_of_itemsToJson h
      exact .element hx hfault
    · cases h
  | .pairs ms =>
    rw [toJson] at h
    rcases error_of_bind_eq_error h with h | ⟨vs, -, h⟩
    · obtain ⟨m, hm, hfault | hfault⟩ := exists_of_pairsToJson h
      · exact .pairKey hm hfault
      · exact .pairValue hm hfault
    · cases h
  | .map ms =>
    rw [toJson] at h
    rcases error_of_bind_eq_error h with h | ⟨vs, -, h⟩
    · obtain ⟨m, hm, hfault | hfault⟩ := exists_of_membersToJson h
      · exact .name hm hfault
      · exact .value hm hfault
    · cases h
  | .loop =>
    cases h
    exact .loop

/-- Items without documents have one that cannot be written. -/
theorem exists_of_itemsToJson {xs : List Value} {f : ValueFault} (h : itemsToJson xs = .error f) :
    ∃ x ∈ xs, x.Unwritable f := by
  match xs with
  | [] => cases h
  | x :: xs =>
    rw [itemsToJson] at h
    rcases error_of_bind_eq_error h with h | ⟨v, -, h⟩
    · exact ⟨x, List.mem_cons_self, unwritable_of_toJson h⟩
    rcases error_of_bind_eq_error h with h | ⟨vs, -, h⟩
    · obtain ⟨y, hy, hfault⟩ := exists_of_itemsToJson h
      exact ⟨y, List.mem_cons_of_mem _ hy, hfault⟩
    · cases h

/-- So have pairs, as a key or a value. -/
theorem exists_of_pairsToJson {ms : List (Value × Value)} {f : ValueFault}
    (h : pairsToJson ms = .error f) : ∃ m ∈ ms, m.1.Unwritable f ∨ m.2.Unwritable f := by
  match ms with
  | [] => cases h
  | (k, x) :: ms =>
    rw [pairsToJson] at h
    rcases error_of_bind_eq_error h with h | ⟨k', -, h⟩
    · exact ⟨_, List.mem_cons_self, .inl (unwritable_of_toJson h)⟩
    rcases error_of_bind_eq_error h with h | ⟨v, -, h⟩
    · exact ⟨_, List.mem_cons_self, .inr (unwritable_of_toJson h)⟩
    rcases error_of_bind_eq_error h with h | ⟨vs, -, h⟩
    · obtain ⟨m, hm, hfault⟩ := exists_of_pairsToJson h
      exact ⟨m, List.mem_cons_of_mem _ hm, hfault⟩
    · cases h

/-- Members without a document have a name that is none, or a value that cannot be written. -/
theorem exists_of_membersToJson {ms : List (Value × Value)} {f : ValueFault}
    (h : membersToJson ms = .error f) : ∃ m ∈ ms, m.1.name = .error f ∨ m.2.Unwritable f := by
  match ms with
  | [] => cases h
  | (k, x) :: ms =>
    rw [membersToJson] at h
    rcases error_of_bind_eq_error h with h | ⟨name, -, h⟩
    · exact ⟨_, List.mem_cons_self, .inl h⟩
    rcases error_of_bind_eq_error h with h | ⟨v, -, h⟩
    · exact ⟨_, List.mem_cons_self, .inr (unwritable_of_toJson h)⟩
    rcases error_of_bind_eq_error h with h | ⟨vs, -, h⟩
    · obtain ⟨m, hm, hfault⟩ := exists_of_membersToJson h
      exact ⟨m, List.mem_cons_of_mem _ hm, hfault⟩
    · cases h

end

/-- The parts of a list of pairs have documents. -/
theorem exists_of_toJson_pairs {ms : List (Value × Value)} {v : Json} (h : (pairs ms).toJson = .ok v)
    {m : Value × Value} (hm : m ∈ ms) : ∃ k w, m.1.toJson = .ok k ∧ m.2.toJson = .ok w := by
  rw [toJson] at h
  obtain ⟨vs, hvs, -⟩ := exists_of_bind_eq_ok h
  obtain ⟨ps, -, hps⟩ := of_pairsToJson hvs
  obtain ⟨p, -, hp⟩ := (exists_mem_of_forall₂ hps).1 _ hm
  exact ⟨_, _, hp⟩

/-- The members of a mapping have names and documents. -/
theorem exists_of_toJson_map {ms : List (Value × Value)} {v : Json} (h : (map ms).toJson = .ok v)
    {m : Value × Value} (hm : m ∈ ms) : ∃ name w, m.1.name = .ok name ∧ m.2.toJson = .ok w := by
  rw [toJson] at h
  obtain ⟨members, hmembers, -⟩ := exists_of_bind_eq_ok h
  obtain ⟨p, -, hp⟩ := (exists_mem_of_forall₂ (of_membersToJson hmembers)).1 _ hm
  exact ⟨_, _, hp⟩

/-- A value that is written is none of these. -/
theorem Unwritable.toJson_ne {x : Value} {f : ValueFault} (h : x.Unwritable f) : ∀ v, x.toJson ≠ .ok v := by
  induction h with
  | int hlong =>
    intro v hv
    rw [toJson, intText?, if_pos hlong] at hv
    cases hv
  | loop =>
    intro v hv
    cases hv
  | item hx _ ih | element hx _ ih =>
    intro v hv
    rw [toJson] at hv
    obtain ⟨vs, hvs, -⟩ := exists_of_bind_eq_ok hv
    obtain ⟨w, -, hw⟩ := (exists_mem_of_forall₂ (of_itemsToJson hvs)).1 _ hx
    exact ih w hw
  | pairKey hm _ ih =>
    intro v hv
    obtain ⟨k, w, hkey, -⟩ := exists_of_toJson_pairs hv hm
    exact ih k hkey
  | pairValue hm _ ih =>
    intro v hv
    obtain ⟨k, w, -, hvalue⟩ := exists_of_toJson_pairs hv hm
    exact ih w hvalue
  | name hm hfault =>
    intro v hv
    obtain ⟨name, w, hname, -⟩ := exists_of_toJson_map hv hm
    rw [hfault] at hname
    cases hname
  | value hm _ ih =>
    intro v hv
    obtain ⟨name, w, -, hvalue⟩ := exists_of_toJson_map hv hm
    exact ih w hvalue

end Value

/-! ## Texts -/

/-- A text is nested too deep: its nodes are, or the document that its aliases make of them. -/
inductive TooDeep (cs : List Char) : Prop
  | nodes : Node.ofStream (.ofChars cs) = .error (.value .tooDeep) → TooDeep cs
  | document {root : Node} {x : Value} {v : Json} : Node.ofStream (.ofChars cs) = .ok (some root) →
      root.toValue = .ok x → x.toJson = .ok v → Json.Reader.depthLimit < v.depth → TooDeep cs

/-- Why a text has no JSON document although it has the form of YAML: reading it gets to a number that is
none, or a scalar of its document is written like no value of its tag, or the value of its document is not
one that JSON has. -/
inductive Unfit (cs : List Char) : ValueFault → Prop
  | token {f : ValueFault} : Node.ofStream (.ofChars cs) = .error (.value f) → f.OfToken → Unfit cs f
  | scalar {root : Node} {p : Valued} {f : ValueFault} : Node.ofStream (.ofChars cs) = .ok (some root) →
      root.valuate.Within p → p.Misfit f → Unfit cs f
  | value {root : Node} {x : Value} {f : ValueFault} : Node.ofStream (.ofChars cs) = .ok (some root) →
      root.toValue = .ok x → x.Unwritable f → Unfit cs f

/-- A fault of a value that is met in reading nodes is one of a number, or of the nesting. -/
theorem Node.ofToken_of_ofStream {cs : List Char} {f : ValueFault}
    (h : Node.ofStream (.ofChars cs) = .error (.value f)) : f.OfToken ∨ f = .tooDeep := by
  rcases Node.stops_ofStream _ _ h with ⟨m, hm⟩ | hfault | hdeep
  · cases hm
  · cases TokenStream.ofTokens_fault hfault with
    | number hnumber => exact .inl hnumber
  · cases hdeep
    exact .inr rfl

/-- A node with a value is sound. -/
theorem Node.sound_of_toValue {n : Node} {x : Value} (h : n.toValue = .ok x) : n.valuate.Sound := by
  rw [toValue] at h
  split at h
  · next hresult => exact (Valued.Sound.of_result hresult).1
  · cases h

/-- A node whose value fails has a misfit scalar within it. -/
theorem Node.exists_misfit_of_toValue {n : Node} {f : ValueFault} (h : n.toValue = .error (.value f)) :
    ∃ p, n.valuate.Within p ∧ p.Misfit f := by
  rw [toValue] at h
  split at h
  · cases h
  · next g hresult =>
    obtain ⟨level, fault⟩ := g
    cases h
    exact Valued.forall_valuate Valued.hereditary_misfit n level f hresult

/-- A text fails with the fault of a value only if it is nested too deep or unfit. -/
theorem unfit_of_readChars {cs : List Char} {f : ValueFault} (h : readChars cs = .error (.value f)) :
    TooDeep cs ∧ f = .tooDeep ∨ Unfit cs f := by
  rw [readChars] at h
  split at h
  · next hg =>
    obtain ⟨c, -, rfl⟩ := Option.map_eq_some_iff.mp hg
    cases h
  rcases error_of_bind_eq_error h with h | ⟨document, hdocument, h⟩
  · rcases Node.ofToken_of_ofStream h with htoken | rfl
    · exact .inr (.token h htoken)
    · exact .inl ⟨.nodes h, rfl⟩
  cases document with
  | none => cases h
  | some root =>
    dsimp only at h
    rcases error_of_bind_eq_error h with h | ⟨x, hx, h⟩
    · obtain ⟨p, hp, hmisfit⟩ := Node.exists_misfit_of_toValue h
      exact .inr (.scalar hdocument hp hmisfit)
    split at h
    · next v hv =>
      split at h
      · next hdeep =>
        cases h
        exact .inl ⟨.document hdocument hx hv hdeep, rfl⟩
      · cases h
    · next hfault =>
      cases h
      exact .inr (.value hdocument hx (Value.unwritable_of_toJson hfault))

/-- A text that has a JSON document is neither. -/
theorem not_unfit_of_readChars {cs : List Char} {v : Json} (h : readChars cs = .ok v) :
    ¬TooDeep cs ∧ ∀ f, ¬Unfit cs f := by
  rcases exists_of_readChars h with ⟨hdocument, -⟩ | ⟨root, x, hdocument, hx, hv, hdepth⟩
  · constructor
    · intro hdeep
      cases hdeep with
      | nodes hstop => cases hdocument.symm.trans hstop
      | document hroot => cases hdocument.symm.trans hroot
    · intro f hunfit
      cases hunfit with
      | token hstop => cases hdocument.symm.trans hstop
      | scalar hroot => cases hdocument.symm.trans hroot
      | value hroot => cases hdocument.symm.trans hroot
  · constructor
    · intro hdeep
      cases hdeep with
      | nodes hstop => cases hdocument.symm.trans hstop
      | document hroot hvalue hwritten hlimit =>
        cases hdocument.symm.trans hroot
        cases hx.symm.trans hvalue
        cases hv.symm.trans hwritten
        exact absurd hlimit (Nat.not_lt.mpr hdepth)
    · intro f hunfit
      -- the text has one root, so what is said to be unfit is about the value that was written
      cases hunfit with
      | token hstop => cases hdocument.symm.trans hstop
      | scalar hroot hwithin hmisfit =>
        cases hdocument.symm.trans hroot
        exact Valued.forall_valuate Valued.hereditary_fit _ (Node.sound_of_toValue hx) _ _ hwithin hmisfit
      | value hroot hvalue hunwritable =>
        cases hdocument.symm.trans hroot
        cases hx.symm.trans hvalue
        exact hunwritable.toJson_ne v hv

end DocDesk.Yaml
