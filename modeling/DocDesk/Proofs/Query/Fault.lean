import DocDesk.Proofs.Json.Everywhere
import DocDesk.Proofs.Number.Digits
import DocDesk.Proofs.Query.Place
import DocDesk.Proofs.Steps

/-!
# Where evaluations break off

An evaluation breaks off on the way along the steps of its path, at the first value for which a step
cannot be taken: a name over `digitLimit` that would be the index of an array (`Stuck`), or a property of a
filter that holds an array nested too deep to be compared (`Overdeep`).  Every fault tells which of the two
was met (`Fault.Met`).  No value on the way is nested deeper than the document, so that in a document nested
no deeper than `formLimit` everything can be compared (`not_overdeep`).

Main statement: `places_eq_error_iff`.
-/

namespace DocDesk.Query

/-- On the way along the steps, a name over the limit is taken as the index of an array. -/
inductive Stuck : Json → List Segment → Prop where
  | name {items : List Json} {name : String} {rest : List Segment} (hname : isIndexName name = true)
    (hlen : digitLimit < name.toList.length) : Stuck (.arr items) (.field name :: rest)
  | property {items : List Json} {i : Nat} {members : List (String × Json)} {property : List String}
    {op : Json.Comparator} {literal : Literal} {rest : List Segment}
    (hi : items[i]? = some (.obj members))
    (h : Stuck (.obj members) (property.map Segment.field)) :
    Stuck (.arr items) (.filter property op literal :: rest)
  | move {v w : Json} {s c : Segment} {rest : List Segment} (hmove : Move v s c w)
    (h : Stuck w rest) : Stuck v (s :: rest)

/-- An object has the property, and what it holds is nested too deep to be compared. -/
def HoldsOverdeep (property : List String) (item : Json) : Prop :=
  (∃ members, item = .obj members) ∧ ∃ x, descend item property = .ok (some x) ∧ x.isOverdeep = true

/-- On the way along the steps, a filter meets an object whose property is nested too deep to be
compared. -/
inductive Overdeep : Json → List Segment → Prop where
  | compared {items : List Json} {i : Nat} {item : Json} {property : List String}
    {op : Json.Comparator} {literal : Literal} {rest : List Segment} (hi : items[i]? = some item)
    (h : HoldsOverdeep property item) : Overdeep (.arr items) (.filter property op literal :: rest)
  | move {v w : Json} {s c : Segment} {rest : List Segment} (hmove : Move v s c w)
    (h : Overdeep w rest) : Overdeep v (s :: rest)

/-- What was met on the way along the steps, as a fault tells it. -/
def Fault.Met : Fault → Json → List Segment → Prop
  | .digits _ => Stuck
  | .nesting _ => Overdeep

/-- What is met further on is met on the whole way. -/
theorem Fault.Met.move {f : Fault} {v w : Json} {s c : Segment} {rest : List Segment}
    (hmove : Move v s c w) (h : f.Met w rest) : f.Met v (s :: rest) := by
  cases f with
  | digits d => exact Stuck.move hmove h
  | nesting e => exact Overdeep.move hmove h

/-! ## Single steps -/

section Items

variable {α : Type} {visit : Nat → Json → Except Fault (List α)} {k : Nat} {items : List Json}

/-- A fault of a walk over items is the fault of one of them. -/
theorem exists_of_walkItems_error {f : Fault} (h : walkItems visit k items = .error f) :
    ∃ i item, items[i]? = some item ∧ visit (k + i) item = .error f := by
  induction items generalizing k with
  | nil => cases h
  | cons item items ih =>
    rw [walkItems] at h
    rcases error_of_bind_eq_error h with h | ⟨here, -, h⟩
    · exact ⟨0, item, rfl, h⟩
    rcases error_of_bind_eq_error h with h | ⟨more, -, h⟩
    · obtain ⟨i, item', hi, hf⟩ := ih h
      exact ⟨i + 1, item', hi, by rw [← hf]; congr 1; omega⟩
    · cases h

/-- A walk over items of which one fails does not end well. -/
theorem walkItems_fails {i : Nat} {item : Json} (hi : items[i]? = some item)
    (h : ∃ f, visit (k + i) item = .error f) : ∃ f, walkItems visit k items = .error f := by
  induction items generalizing k i with
  | nil => cases hi
  | cons first items ih =>
    rw [walkItems]
    cases hv : visit k first with
    | error f => exact ⟨f, rfl⟩
    | ok here =>
      -- the item that fails is a later one
      cases i with
      | zero =>
        cases hi
        obtain ⟨f, hf⟩ := h
        rw [Nat.add_zero, hv] at hf
        cases hf
      | succ i =>
        have hlater : ∃ f, visit (k + 1 + i) item = .error f := by
          rwa [show k + 1 + i = k + (i + 1) by omega]
        obtain ⟨f, hf⟩ := ih hi hlater
        exact ⟨f, by rw [hf]; rfl⟩

end Items

/-- A name leads nowhere because of its digits exactly if it is over the limit and meets an array. -/
theorem child_eq_error_iff {v : Json} {name : String} {f : Fault} :
    child v name = .error f ↔ (∃ items, v = .arr items) ∧ isIndexName name = true ∧
      digitLimit < name.toList.length ∧ f = .digits (.unreadable name.toList.length) := by
  cases v with
  | arr items =>
    cases hname : isIndexName name with
    | false => simp [child_arr_of_not hname]
    | true =>
      cases hread : readDigits name.toList with
      | error g =>
        obtain ⟨hlen, rfl⟩ := readDigits_eq_error_iff.mp hread
        simp [child_arr_of_error hname hread, hlen, eq_comm]
      | ok n =>
        have hlen := readDigits_ok_iff.mp ⟨n, hread⟩
        rw [child_arr_of_ok hname hread]
        refine iff_of_false (fun h => ?_) fun h => Nat.not_lt.mpr hlen h.2.2.1
        cases h
  | _ => simp [child]

/-- Going down names fails where finding the places of the fields does. -/
theorem descend_eq_error_iff {v : Json} {names : List String} {f : Fault} :
    descend v names = .error f ↔ places v (names.map Segment.field) = .error f := by
  induction names generalizing v with
  | nil => simp [descend, places]
  | cons name names ih =>
    simp only [descend, places, List.map_cons]
    cases child v name with
    | error g => simp
    | ok w? =>
      cases w? with
      | none => simp
      | some w =>
        simp only [ih]
        cases places w (names.map Segment.field) <;> simp [Except.map]

/-- Steps put in front of places do not change the fault. -/
theorem map_under_eq_error_iff {s : Segment} {r : Except Fault (List Place)} {f : Fault} :
    r.map (List.map (Place.under s)) = .error f ↔ r = .error f := by
  cases r <;> simp [Except.map]

/-- A literal is a scalar. -/
theorem Literal.isScalar_toJson (l : Literal) : l.toJson.isScalar = true := by
  cases l <;> rfl

/-- A literal is not null. -/
theorem Literal.isNull_toJson (l : Literal) : l.toJson.isNull = false := by
  cases l <;> rfl

/-- A comparison with a literal fails exactly if the value is nested too deep. -/
theorem compare_literal_eq_error_iff {op : Json.Comparator} {same : Bool} {x : Json} {literal : Literal}
    {e : Nesting.Exceeded} : op.compare same x literal.toJson = .error e ↔ x.isOverdeep = true := by
  exact Json.compare_eq_error_iff literal.isScalar_toJson literal.isNull_toJson

/-- What an element tells of itself where the value of its property can be compared. -/
theorem passes_of_descend {property : List String} {op : Json.Comparator} {literal : Literal}
    {members : List (String × Json)} {x : Json} (hd : descend (.obj members) property = .ok (some x))
    (hx : x.isOverdeep = false) :
    passes property op literal (.obj members) = .ok (op.holds false x literal.toJson) := by
  rw [passes, hd]
  dsimp only [bind, Except.bind]
  rw [Json.compare_eq_ok literal.isScalar_toJson literal.isNull_toJson hx]
  rfl

/-- The test of an element fails where going down its property does, and where the value found there is
nested too deep. -/
theorem passes_eq_error_iff {property : List String} {op : Json.Comparator} {literal : Literal}
    {item : Json} {f : Fault} : passes property op literal item = .error f ↔
      ((∃ members, item = .obj members) ∧ descend item property = .error f) ∨
        HoldsOverdeep property item ∧ f = .nesting {} := by
  cases item with
  | obj members =>
    cases hd : descend (.obj members) property with
    | error g => simp [passes, HoldsOverdeep, hd, bind, Except.bind]
    | ok x? =>
      cases x? with
      | none => simp [passes, HoldsOverdeep, hd, bind, Except.bind]
      | some x =>
        cases hx : x.isOverdeep with
        | false => simp [passes_of_descend hd hx, HoldsOverdeep, hd, hx]
        | true =>
          have hcompare := (@compare_literal_eq_error_iff op false x literal {}).mpr hx
          have hholds : HoldsOverdeep property (.obj members) := ⟨⟨members, rfl⟩, x, hd, hx⟩
          rw [passes, hd]
          dsimp only [bind, Except.bind]
          rw [hcompare]
          change Except.error (Fault.nesting {}) = Except.error f ↔ _
          simp [hholds, eq_comm]
  | _ => simp [passes, HoldsOverdeep]

/-! ## The whole way -/

/-- A name that leads nowhere because of its digits is where the way gets stuck. -/
theorem stuck_of_child_error {v : Json} {name : String} {rest : List Segment} {f : Fault}
    (h : child v name = .error f) : f.Met v (.field name :: rest) := by
  obtain ⟨⟨items, rfl⟩, hname, hlen, rfl⟩ := child_eq_error_iff.mp h
  exact Stuck.name hname hlen

/-- Going down a property that fails gets stuck. -/
theorem stuck_of_descend_error {v : Json} {names : List String} {f : Fault}
    (h : descend v names = .error f) : ∃ d, f = .digits d ∧ Stuck v (names.map Segment.field) := by
  induction names generalizing v with
  | nil => cases h
  | cons name names ih =>
    simp only [descend] at h
    split at h
    · next w hc =>
      obtain ⟨d, hd, hstuck⟩ := ih h
      exact ⟨d, hd, .move (.field hc) hstuck⟩
    · cases h
    · next g hc =>
      cases h
      obtain ⟨⟨items, rfl⟩, hname, hlen, rfl⟩ := child_eq_error_iff.mp hc
      exact ⟨_, rfl, .name hname hlen⟩

/-- The fault of a test says what the filter met. -/
theorem met_of_passes_error {items : List Json} {i : Nat} {item : Json} {property : List String}
    {op : Json.Comparator} {literal : Literal} {rest : List Segment} {f : Fault}
    (hi : items[i]? = some item) (h : passes property op literal item = .error f) :
    f.Met (.arr items) (.filter property op literal :: rest) := by
  rcases passes_eq_error_iff.mp h with ⟨⟨members, rfl⟩, hdescend⟩ | ⟨hholds, rfl⟩
  · obtain ⟨d, rfl, hstuck⟩ := stuck_of_descend_error hdescend
    exact Stuck.property hi hstuck
  · exact Overdeep.compared hi hholds

/-- Finding the places of a path fails with the fault of what is met on the way. -/
theorem met_of_places_error {v : Json} {ss : List Segment} {f : Fault} (h : places v ss = .error f) :
    f.Met v ss := by
  induction ss generalizing v with
  | nil => cases h
  | cons s rest ih =>
    cases s with
    | field name =>
      simp only [places] at h
      split at h
      · next w hc => exact (ih (map_under_eq_error_iff.mp h)).move (.field hc)
      · cases h
      · next g hc =>
        cases h
        exact stuck_of_child_error hc
    | index i =>
      simp only [places] at h
      split at h
      · next w hi => exact (ih (map_under_eq_error_iff.mp h)).move (.index hi)
      · cases h
    | wildcard =>
      cases v with
      | arr items =>
        obtain ⟨i, item, hi, hvisit⟩ := exists_of_walkItems_error h
        exact (ih (map_under_eq_error_iff.mp hvisit)).move (.wildcard hi)
      | _ => cases h
    | filter property op literal =>
      cases v with
      | arr items =>
        obtain ⟨i, item, hi, hvisit⟩ := exists_of_walkItems_error h
        -- the fault lies below an item that passes, or in the test of an item
        split at hvisit
        · next hpass => exact (ih (map_under_eq_error_iff.mp hvisit)).move (.filter hi hpass)
        · cases hvisit
        · next hpass =>
          cases hvisit
          exact met_of_passes_error hi hpass
      | _ => cases h

/-- One step further on, finding places fails if it fails there. -/
theorem Move.places_error {v w : Json} {s c : Segment} {rest : List Segment} (h : Move v s c w)
    (hrest : ∃ f, places w rest = .error f) : ∃ f, places v (s :: rest) = .error f := by
  obtain ⟨f, hf⟩ := hrest
  cases h with
  | field hc =>
    refine ⟨f, ?_⟩
    simp only [places, hc]
    exact map_under_eq_error_iff.mpr hf
  | index hi =>
    refine ⟨f, ?_⟩
    simp only [places, hi]
    exact map_under_eq_error_iff.mpr hf
  | @wildcard items w i hi => exact walkItems_fails hi ⟨f, by rw [hf]; rfl⟩
  | @filter items w i property op literal hi hpass =>
    exact walkItems_fails hi ⟨f, by rw [Nat.zero_add, hpass, hf]; rfl⟩

/-- An array with an element whose test fails is not walked to its end. -/
theorem places_error_of_passes {items : List Json} {i : Nat} {item : Json} {property : List String}
    {op : Json.Comparator} {literal : Literal} {f : Fault} (hi : items[i]? = some item)
    (h : passes property op literal item = .error f) (rest : List Segment) :
    ∃ f, places (.arr items) (.filter property op literal :: rest) = .error f :=
  walkItems_fails hi ⟨f, by rw [h]⟩

/-- A way that gets stuck leads to no places. -/
theorem Stuck.places_error {v : Json} {ss : List Segment} (h : Stuck v ss) :
    ∃ f, places v ss = .error f := by
  induction h with
  | @name items name rest hname hlen =>
    have hchild : child (.arr items) name = .error (.digits (.unreadable name.toList.length)) :=
      child_eq_error_iff.mpr ⟨⟨items, rfl⟩, hname, hlen, rfl⟩
    exact ⟨.digits (.unreadable name.toList.length), by simp only [places, hchild]⟩
  | @property items i members property op literal rest hi h ih =>
    obtain ⟨f, hf⟩ := ih
    have hpass : passes property op literal (.obj members) = .error f :=
      passes_eq_error_iff.mpr (.inl ⟨⟨members, rfl⟩, descend_eq_error_iff.mpr hf⟩)
    exact places_error_of_passes hi hpass rest
  | move hmove h ih => exact hmove.places_error ih

/-- A way on which something is nested too deep to be compared leads to no places. -/
theorem Overdeep.places_error {v : Json} {ss : List Segment} (h : Overdeep v ss) :
    ∃ f, places v ss = .error f := by
  induction h with
  | @compared items i item property op literal rest hi h =>
    exact places_error_of_passes hi (passes_eq_error_iff.mpr (.inr ⟨h, rfl⟩)) rest
  | move hmove h ih => exact hmove.places_error ih

/-- Finding the places of a path fails exactly if the way there gets stuck or meets what is nested too
deep. -/
theorem places_eq_error_iff {v : Json} {ss : List Segment} :
    (∃ f, places v ss = .error f) ↔ Stuck v ss ∨ Overdeep v ss := by
  constructor
  · rintro ⟨f, h⟩
    have hmet := met_of_places_error h
    cases f with
    | digits d => exact .inl hmet
    | nesting e => exact .inr hmet
  · rintro (h | h)
    · exact h.places_error
    · exact h.places_error

/-! ## Documents within reach -/

/-- An item is nested less deep than its array. -/
theorem depth_le_of_getElem? {items : List Json} {i : Nat} {w : Json} (h : items[i]? = some w) :
    w.depth ≤ (Json.arr items).depth := by
  have hw := Json.depthItem_le_iff.mp (Nat.le_refl (Json.depthItem items)) w (List.mem_of_getElem? h)
  rw [Json.depth]
  omega

/-- What a name leads to is nested no deeper. -/
theorem depth_le_of_child {v w : Json} {name : String} (h : child v name = .ok (some w)) :
    w.depth ≤ v.depth := by
  cases v with
  | obj members =>
    rw [child_obj, Except.ok.injEq] at h
    have hw : w.depth ≤ Json.depthMember members :=
      Json.depthMember_le_iff.mp (Nat.le_refl _) _ (Json.mem_of_member? h)
    rw [Json.depth]
    omega
  | arr items =>
    cases hname : isIndexName name with
    | false =>
      rw [child_arr_of_not hname] at h
      cases h
    | true =>
      cases hread : readDigits name.toList with
      | error f =>
        rw [child_arr_of_error hname hread] at h
        cases h
      | ok i =>
        rw [child_arr_of_ok hname hread] at h
        exact depth_le_of_getElem? (Except.ok.inj h)
  | _ => cases h

/-- What a property leads to is nested no deeper. -/
theorem depth_le_of_descend {v x : Json} {names : List String} (h : descend v names = .ok (some x)) :
    x.depth ≤ v.depth := by
  induction names generalizing v with
  | nil =>
    cases h
    exact Nat.le_refl _
  | cons name names ih =>
    simp only [descend] at h
    split at h
    · next w hc => exact Nat.le_trans (ih h) (depth_le_of_child hc)
    · cases h
    · cases h

/-- One step leads to what is nested no deeper. -/
theorem Move.depth_le {v w : Json} {s c : Segment} (h : Move v s c w) : w.depth ≤ v.depth := by
  cases h with
  | field hc => exact depth_le_of_child hc
  | index hi =>
    obtain ⟨items, rfl, hi⟩ := item?_eq_some_iff.mp hi
    exact depth_le_of_getElem? hi
  | wildcard hi => exact depth_le_of_getElem? hi
  | filter hi hpass => exact depth_le_of_getElem? hi

/-- In a document that is nested no deeper than forms are taken, everything can be compared. -/
theorem not_overdeep {v : Json} (hdepth : v.depth ≤ Json.formLimit) (ss : List Segment) :
    ¬ Overdeep v ss := by
  intro h
  induction h with
  | @compared items i item property op literal rest hi hholds =>
    obtain ⟨-, x, hx, hdeep⟩ := hholds
    have hitem := depth_le_of_getElem? hi
    have hvalue := depth_le_of_descend hx
    have hform := Json.formDepth_le_depth x
    have hlt : Json.formLimit < x.formDepth := of_decide_eq_true hdeep
    omega
  | move hmove h ih => exact ih (Nat.le_trans hmove.depth_le hdepth)

end DocDesk.Query
