import DocDesk.Json.Basic

/-!
# Properties of everything in a document

`Everywhere P` says that a document and every value in it have a property.  The names of the members of
an object are distinct wherever a document was read from text (`DistinctNames`).

Main statements: `putAll_of_nodup` and `nodup_of_length_ofPairs` (members are kept as they come exactly
if their names are distinct).
-/

namespace DocDesk.Json

/-! ## Storing members -/

section Storing

variable {α : Type}

/-- A new name goes to the end. -/
theorem put_of_notMem {members : List (String × α)} {name : String} {value : α}
    (h : name ∉ members.map Prod.fst) : put members name value = members ++ [(name, value)] := by
  induction members with
  | nil => rfl
  | cons m rest ih =>
    rw [List.map_cons, List.mem_cons, not_or] at h
    rw [put, if_neg (fun he => h.1 he.symm), ih h.2, List.cons_append]

/-- Members of distinct names are stored one behind the other. -/
theorem putAll_of_nodup {members pairs : List (String × α)}
    (h : ((members ++ pairs).map Prod.fst).Nodup) : putAll members pairs = members ++ pairs := by
  induction pairs generalizing members with
  | nil => rw [List.append_nil]; rfl
  | cons p rest ih =>
    have hfresh : p.1 ∉ members.map Prod.fst := by
      rw [List.map_append, List.map_cons] at h
      intro hmem
      exact (List.nodup_append.mp h).2.2 _ hmem p.1 List.mem_cons_self rfl
    rw [List.append_cons] at h ⊢
    rw [← ih h, ← put_of_notMem hfresh]
    rfl

/-- Pairs of distinct names are kept as they are. -/
theorem ofPairs_of_nodup {pairs : List (String × α)} (h : (pairs.map Prod.fst).Nodup) :
    ofPairs pairs = pairs := by
  rw [← List.nil_append pairs] at h
  exact putAll_of_nodup h

/-- Storing adds one member at most. -/
theorem length_put_le (members : List (String × α)) (name : String) (value : α) :
    (put members name value).length ≤ members.length + 1 := by
  have hkeys := congrArg List.length (keys_put members name value)
  rw [List.length_map] at hkeys
  rw [hkeys]
  split <;> simp

/-- Storing pairs adds one member at most for each. -/
theorem length_putAll_le (members pairs : List (String × α)) :
    (putAll members pairs).length ≤ members.length + pairs.length := by
  induction pairs generalizing members with
  | nil => exact Nat.le_refl _
  | cons p rest ih =>
    have hput := length_put_le members p.1 p.2
    have hrest := ih (put members p.1 p.2)
    rw [List.length_cons]
    exact Nat.le_trans hrest (by omega)

/-- Storing makes no name stand twice. -/
theorem nodup_put {members : List (String × α)} {name : String} {value : α}
    (h : (members.map Prod.fst).Nodup) : ((put members name value).map Prod.fst).Nodup := by
  rw [keys_put]
  split
  · exact h
  · next hfresh =>
    rw [List.nodup_append]
    refine ⟨h, by simp, fun a ha b hb => ?_⟩
    rw [List.mem_singleton] at hb
    rintro rfl
    exact hfresh (hb ▸ ha)

/-- Where no member is lost, all names are distinct. -/
theorem nodup_of_length_putAll {members pairs : List (String × α)}
    (hmembers : (members.map Prod.fst).Nodup)
    (h : (putAll members pairs).length = members.length + pairs.length) :
    ((members ++ pairs).map Prod.fst).Nodup := by
  induction pairs generalizing members with
  | nil => rwa [List.append_nil]
  | cons p rest ih =>
    have hput := length_put_le members p.1 p.2
    have hrest : (putAll (put members p.1 p.2) rest).length = members.length + (rest.length + 1) := h
    have hle := length_putAll_le (put members p.1 p.2) rest
    have hfresh : p.1 ∉ members.map Prod.fst := by
      intro hmem
      have hkeys := congrArg List.length (keys_put members p.1 p.2)
      rw [if_pos hmem, List.length_map, List.length_map] at hkeys
      omega
    have hnodup : ((put members p.1 p.2).map Prod.fst).Nodup := nodup_put hmembers
    rw [put_of_notMem hfresh] at hrest hnodup
    rw [List.append_cons]
    refine ih hnodup (hrest.trans ?_)
    rw [List.length_append, List.length_singleton]
    omega

/-- If no pair is lost, all names are distinct. -/
theorem nodup_of_length_ofPairs {pairs : List (String × α)}
    (h : (ofPairs pairs).length = pairs.length) : (pairs.map Prod.fst).Nodup := by
  have hnil : (([] : List (String × α)).map Prod.fst).Nodup := List.nodup_nil
  exact nodup_of_length_putAll hnil (h.trans (Nat.zero_add _).symm)

/-- There are no more members than pairs. -/
theorem length_ofPairs_le (pairs : List (String × α)) : (ofPairs pairs).length ≤ pairs.length := by
  have hle := length_putAll_le [] pairs
  rwa [List.length_nil, Nat.zero_add] at hle

/-- Storing pairs makes no name stand twice. -/
theorem nodup_putAll {members pairs : List (String × α)} (h : (members.map Prod.fst).Nodup) :
    ((putAll members pairs).map Prod.fst).Nodup := by
  induction pairs generalizing members with
  | nil => exact h
  | cons p rest ih => exact ih (nodup_put h)

/-- The names of what is stored are distinct. -/
theorem nodup_ofPairs (pairs : List (String × α)) : ((ofPairs pairs).map Prod.fst).Nodup :=
  nodup_putAll List.nodup_nil

/-- A member is the one that was stored, or was there before. -/
theorem mem_put {members : List (String × α)} {name : String} {value : α} {m : String × α}
    (h : m ∈ put members name value) : m = (name, value) ∨ m ∈ members := by
  induction members with
  | nil => exact .inl (List.mem_singleton.mp h)
  | cons p rest ih =>
    rw [put] at h
    split at h
    · rcases List.mem_cons.mp h with rfl | h
      · exact .inl rfl
      · exact .inr (List.mem_cons_of_mem _ h)
    · rcases List.mem_cons.mp h with rfl | h
      · exact .inr List.mem_cons_self
      · exact (ih h).imp id (List.mem_cons_of_mem _)

/-- A member is one of the pairs that were stored, or was there before. -/
theorem mem_putAll {members pairs : List (String × α)} {m : String × α}
    (h : m ∈ putAll members pairs) : m ∈ members ∨ m ∈ pairs := by
  induction pairs generalizing members with
  | nil => exact .inl h
  | cons p rest ih =>
    rcases ih h with h | h
    · rcases mem_put h with rfl | h
      · exact .inr List.mem_cons_self
      · exact .inl h
    · exact .inr (List.mem_cons_of_mem _ h)

/-- Nothing is stored that was not among the pairs. -/
theorem mem_of_mem_ofPairs {pairs : List (String × α)} {m : String × α} (h : m ∈ ofPairs pairs) :
    m ∈ pairs :=
  (mem_putAll h).resolve_left List.not_mem_nil

end Storing

/-! ## Values in a document -/

/-- The document and every value in it have the property. -/
inductive Everywhere (P : Json → Prop) : Json → Prop where
  | scalar {v : Json} (hscalar : v.isScalar = true) (here : P v) : Everywhere P v
  | arr {items : List Json} (here : P (.arr items)) (h : ∀ item ∈ items, Everywhere P item) :
    Everywhere P (.arr items)
  | obj {members : List (String × Json)} (here : P (.obj members))
    (h : ∀ m ∈ members, Everywhere P m.2) : Everywhere P (.obj members)

section Everywhere

variable {P : Json → Prop}

/-- What holds everywhere holds of the whole. -/
theorem Everywhere.self {v : Json} (h : Everywhere P v) : P v := by
  cases h <;> assumption

/-- It holds everywhere in the items. -/
theorem Everywhere.items {items : List Json} (h : Everywhere P (.arr items)) :
    ∀ item ∈ items, Everywhere P item := by
  cases h with
  | scalar hscalar => cases hscalar
  | arr _ h => exact h

/-- It holds everywhere in the members. -/
theorem Everywhere.members {members : List (String × Json)} (h : Everywhere P (.obj members)) :
    ∀ m ∈ members, Everywhere P m.2 := by
  cases h with
  | scalar hscalar => cases hscalar
  | obj _ h => exact h

end Everywhere

/-! ## Checking everything in a document -/

section Check

variable (p : Json → Bool)

mutual

/-- A test of the document and every value in it. -/
def everywhere : Json → Bool
  | .arr items => p (.arr items) && everywhereItem items
  | .obj members => p (.obj members) && everywhereMember members
  | v => p v

/-- The test of items. -/
def everywhereItem : List Json → Bool
  | [] => true
  | v :: vs => everywhere v && everywhereItem vs

/-- The test of members. -/
def everywhereMember : List (String × Json) → Bool
  | [] => true
  | (_, v) :: ms => everywhere v && everywhereMember ms

end

mutual

/-- What is checked everywhere holds everywhere. -/
theorem everywhere_iff (v : Json) : everywhere p v = true ↔ Everywhere (fun w => p w = true) v := by
  match v with
  | .arr items =>
    rw [everywhere, Bool.and_eq_true, everywhereItem_iff items]
    exact ⟨fun h => .arr h.1 h.2, fun h => ⟨h.self, h.items⟩⟩
  | .obj members =>
    rw [everywhere, Bool.and_eq_true, everywhereMember_iff members]
    exact ⟨fun h => .obj h.1 h.2, fun h => ⟨h.self, h.members⟩⟩
  | .null | .bool _ | .int _ | .float _ | .str _ => exact ⟨fun h => .scalar rfl h, fun h => h.self⟩

theorem everywhereItem_iff (vs : List Json) :
    everywhereItem p vs = true ↔ ∀ v ∈ vs, Everywhere (fun w => p w = true) v := by
  match vs with
  | [] => simp [everywhereItem]
  | v :: vs =>
    rw [everywhereItem, Bool.and_eq_true, everywhere_iff v, everywhereItem_iff vs, List.forall_mem_cons]

theorem everywhereMember_iff (ms : List (String × Json)) :
    everywhereMember p ms = true ↔ ∀ m ∈ ms, Everywhere (fun w => p w = true) m.2 := by
  match ms with
  | [] => simp [everywhereMember]
  | (k, v) :: ms =>
    rw [everywhereMember, Bool.and_eq_true, everywhere_iff v, everywhereMember_iff ms,
      List.forall_mem_cons]

end

end Check

/-- Properties that say the same hold everywhere in the same documents. -/
theorem Everywhere.congr {P Q : Json → Prop} (h : ∀ v, P v ↔ Q v) {v : Json} :
    Everywhere P v ↔ Everywhere Q v := by
  have hPQ : P = Q := funext fun v => propext (h v)
  rw [hPQ]

instance {P : Json → Prop} [DecidablePred P] (v : Json) : Decidable (Everywhere P v) :=
  decidable_of_iff (everywhere (fun w => decide (P w)) v = true)
    ((everywhere_iff _ v).trans (Everywhere.congr fun _ => decide_eq_true_iff))

/-! ## Distinct names -/

/-- The members of an object have distinct names. -/
def OwnNamesDistinct : Json → Prop
  | .obj members => (members.map Prod.fst).Nodup
  | _ => True

instance : DecidablePred OwnNamesDistinct
  | .obj members => inferInstanceAs (Decidable (members.map Prod.fst).Nodup)
  | .null | .bool _ | .int _ | .float _ | .str _ | .arr _ => inferInstanceAs (Decidable True)

/-- No object in the document has two members of one name. -/
def DistinctNames : Json → Prop := Everywhere OwnNamesDistinct

instance (v : Json) : Decidable (DistinctNames v) :=
  inferInstanceAs (Decidable (Everywhere OwnNamesDistinct v))

/-- No name of the object itself stands twice. -/
theorem DistinctNames.nodup {members : List (String × Json)} (h : DistinctNames (.obj members)) :
    (members.map Prod.fst).Nodup :=
  Everywhere.self h

/-! ## Looking up members -/

/-- What is found under a name is a member. -/
theorem mem_of_member? {members : List (String × α)} {name : String} {value : α}
    (h : member? members name = some value) : (name, value) ∈ members := by
  obtain ⟨front, behind, hsplit, -⟩ := List.lookup_eq_some_iff.mp h
  rw [hsplit]
  exact List.mem_append_right front List.mem_cons_self

/-- Of distinct names every one leads to its own value. -/
theorem member?_of_mem {members : List (String × α)} {name : String} {value : α}
    (hnodup : (members.map Prod.fst).Nodup) (h : (name, value) ∈ members) :
    member? members name = some value := by
  obtain ⟨front, behind, hsplit⟩ := List.append_of_mem h
  refine List.lookup_eq_some_iff.mpr ⟨front, behind, hsplit, ?_⟩
  intro m hm
  rw [hsplit, List.map_append, List.map_cons] at hnodup
  have hne := (List.nodup_append.mp hnodup).2.2 m.1 (List.mem_map_of_mem hm) name List.mem_cons_self
  simpa using hne.symm

end DocDesk.Json
