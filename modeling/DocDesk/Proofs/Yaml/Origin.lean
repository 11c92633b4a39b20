import DocDesk.Proofs.Json.Representable
import DocDesk.Proofs.Yaml.Key
import DocDesk.Proofs.Yaml.Part
import DocDesk.Yaml.Reader

/-!
# Where the parts of a written document come from

Every array and object of a JSON document that was read from YAML text comes from a node: the items of an
array from those of a sequence, the members of an object from the keys that a mapping keeps.

Main statements: `Valued.becomes_valuate` and `exists_of_readChars`.
-/

namespace DocDesk.Yaml

/-- The members of a mapping that are kept: one for the keys of each member, with the last value. -/
def keptMembers (ms : List (Valued × Valued)) : List (Valued × Valued) :=
  Value.keptBy (fun a b => Value.sameKey a.value b.value) ms

/-- The members that are kept have the values that are stored. -/
theorem map_keptMembers (ms : List (Valued × Valued)) :
    (keptMembers ms).map (Prod.map Valued.value Valued.value) = Node.memberValues ms := by
  rw [keptMembers, Value.map_keptBy fun _ _ => rfl, Node.memberValues, Value.ofPairs_eq_keptBy]
  rfl

/-- The JSON document that a node becomes.  The keys of every mapping on the way are in a relation to the
names of its object. -/
inductive Valued.Becomes (R : List Value → List String → Prop) : Valued → Json → Prop
  | scalar {n : Valued} {x : Value} {v : Json} : n.result = .ok x → x.isKey = true → x.toJson = .ok v →
      Becomes R n v
  | list {n : Valued} {vs : List Json} : n.tag = Tag.core "seq" → n.items.length = vs.length →
      (∀ p ∈ n.items.zip vs, Becomes R p.1 p.2) → Becomes R n (.arr vs)
  | pairs {n : Valued} {ps : List (Json × Json)} :
      n.tag = Tag.core "omap" ∨ n.tag = Tag.core "pairs" → (n.items.flatMap raw).length = ps.length →
      (∀ p ∈ (n.items.flatMap raw).zip ps, Becomes R p.1.1 p.2.1) →
      (∀ p ∈ (n.items.flatMap raw).zip ps, Becomes R p.1.2 p.2.2) →
      Becomes R n (.arr (ps.map fun p => .arr [p.1, p.2]))
  | set {n : Valued} {ms : List (Valued × Valued)} {vs : List Json} :
      n.tag = Tag.core "set" → n.entries = .ok ms → (keptMembers ms).length = vs.length →
      (∀ p ∈ (keptMembers ms).zip vs, Becomes R p.1.1 p.2) → Becomes R n (.arr vs)
  | map {n : Valued} {ms : List (Valued × Valued)} {members : List (String × Json)} :
      n.tag = Tag.core "map" → n.entries = .ok ms → (keptMembers ms).length = members.length →
      (∀ p ∈ (keptMembers ms).zip members, p.1.1.value.name = .ok p.2.1) →
      (∀ p ∈ (keptMembers ms).zip members, Becomes R p.1.2 p.2.2) →
      R (ms.map fun m => m.1.value) (members.map Prod.fst) → Becomes R n (.obj members)

namespace Value

/-! ## Documents of values -/

/-- Items have documents one by one. -/
theorem of_itemsToJson {xs : List Value} {vs : List Json} (h : itemsToJson xs = .ok vs) :
    List.Forall₂ (fun x v => x.toJson = .ok v) xs vs := by
  induction xs generalizing vs with
  | nil =>
    cases h
    exact .nil
  | cons x xs ih =>
    rw [itemsToJson] at h
    obtain ⟨v, hv, h⟩ := exists_of_bind_eq_ok h
    obtain ⟨rest, hrest, h⟩ := exists_of_bind_eq_ok h
    cases h
    exact .cons hv (ih hrest)

/-- Pairs have documents one by one. -/
theorem of_pairsToJson {ms : List (Value × Value)} {vs : List Json} (h : pairsToJson ms = .ok vs) :
    ∃ ps : List (Json × Json), vs = ps.map (fun p => .arr [p.1, p.2]) ∧
      List.Forall₂ (fun m p => m.1.toJson = .ok p.1 ∧ m.2.toJson = .ok p.2) ms ps := by
  induction ms generalizing vs with
  | nil =>
    cases h
    exact ⟨[], rfl, .nil⟩
  | cons m ms ih =>
    rw [pairsToJson] at h
    obtain ⟨k, hk, h⟩ := exists_of_bind_eq_ok h
    obtain ⟨v, hv, h⟩ := exists_of_bind_eq_ok h
    obtain ⟨rest, hrest, h⟩ := exists_of_bind_eq_ok h
    cases h
    obtain ⟨ps, rfl, hps⟩ := ih hrest
    exact ⟨(k, v) :: ps, rfl, .cons ⟨hk, hv⟩ hps⟩

/-- Members have names and documents one by one. -/
theorem of_membersToJson {ms : List (Value × Value)} {members : List (String × Json)}
    (h : membersToJson ms = .ok members) :
    List.Forall₂ (fun m p => m.1.name = .ok p.1 ∧ m.2.toJson = .ok p.2) ms members := by
  induction ms generalizing members with
  | nil =>
    cases h
    exact .nil
  | cons m ms ih =>
    rw [membersToJson] at h
    obtain ⟨k, hk, h⟩ := exists_of_bind_eq_ok h
    obtain ⟨v, hv, h⟩ := exists_of_bind_eq_ok h
    obtain ⟨rest, hrest, h⟩ := exists_of_bind_eq_ok h
    cases h
    exact .cons ⟨hk, hv⟩ (ih hrest)

mutual

/-- Integers that are too long are not written. -/
theorem shortIntegers_of_toJson {x : Value} {v : Json} (h : x.toJson = .ok v) : v.ShortIntegers := by
  match x with
  | .null | .bool _ | .float _ | .str _ | .bytes _ | .time _ =>
    cases h
    exact .scalar rfl trivial
  | .int i =>
    rw [toJson] at h
    split at h
    · next cs hcs =>
      cases h
      rw [intText?] at hcs
      split at hcs
      · cases hcs
      · next hshort => exact .scalar rfl (Nat.le_of_not_lt hshort)
    · cases h
  | .list xs | .set xs =>
    rw [toJson] at h
    obtain ⟨vs, hvs, h⟩ := exists_of_bind_eq_ok h
    cases h
    exact .arr trivial (shortIntegers_of_itemsToJson hvs)
  | .pairs ms =>
    rw [toJson] at h
    obtain ⟨vs, hvs, h⟩ := exists_of_bind_eq_ok h
    cases h
    exact .arr trivial (shortIntegers_of_pairsToJson hvs)
  | .map ms =>
    rw [toJson] at h
    obtain ⟨members, hmembers, h⟩ := exists_of_bind_eq_ok h
    cases h
    exact .obj trivial (shortIntegers_of_membersToJson hmembers)
  | .loop => cases h

/-- The documents of items have short integers. -/
theorem shortIntegers_of_itemsToJson {xs : List Value} {vs : List Json} (h : itemsToJson xs = .ok vs) :
    ∀ v ∈ vs, Json.ShortIntegers v := by
  match xs with
  | [] =>
    cases h
    exact List.forall_mem_nil _
  | x :: xs =>
    rw [itemsToJson] at h
    obtain ⟨v, hv, h⟩ := exists_of_bind_eq_ok h
    obtain ⟨rest, hrest, h⟩ := exists_of_bind_eq_ok h
    cases h
    exact List.forall_mem_cons.mpr ⟨shortIntegers_of_toJson hv, shortIntegers_of_itemsToJson hrest⟩

/-- So have those of pairs. -/
theorem shortIntegers_of_pairsToJson {ms : List (Value × Value)} {vs : List Json}
    (h : pairsToJson ms = .ok vs) : ∀ v ∈ vs, Json.ShortIntegers v := by
  match ms with
  | [] =>
    cases h
    exact List.forall_mem_nil _
  | (k, x) :: ms =>
    rw [pairsToJson] at h
    obtain ⟨k', hk, h⟩ := exists_of_bind_eq_ok h
    obtain ⟨v, hv, h⟩ := exists_of_bind_eq_ok h
    obtain ⟨rest, hrest, h⟩ := exists_of_bind_eq_ok h
    cases h
    refine List.forall_mem_cons.mpr ⟨.arr trivial ?_, shortIntegers_of_pairsToJson hrest⟩
    exact List.forall_mem_cons.mpr
      ⟨shortIntegers_of_toJson hk, List.forall_mem_singleton.mpr (shortIntegers_of_toJson hv)⟩

/-- So have those of members. -/
theorem shortIntegers_of_membersToJson {ms : List (Value × Value)} {members : List (String × Json)}
    (h : membersToJson ms = .ok members) : ∀ m ∈ members, Json.ShortIntegers m.2 := by
  match ms with
  | [] =>
    cases h
    exact List.forall_mem_nil _
  | (k, x) :: ms =>
    rw [membersToJson] at h
    obtain ⟨name, -, h⟩ := exists_of_bind_eq_ok h
    obtain ⟨v, hv, h⟩ := exists_of_bind_eq_ok h
    obtain ⟨rest, hrest, h⟩ := exists_of_bind_eq_ok h
    cases h
    exact List.forall_mem_cons.mpr ⟨shortIntegers_of_toJson hv, shortIntegers_of_membersToJson hrest⟩

end

end Value

namespace Valued

/-! ## From nodes to documents -/

/-- There is one member for each key exactly if the keys are told apart. -/
def ApartIff (keys : List Value) (names : List String) : Prop :=
  Value.OnePerKey keys names ↔ Value.KeysApart keys

/-- The kept members are those of the mapping, with other values perhaps. -/
theorem leaves_keptMembers (ms : List (Valued × Valued)) :
    Value.Leaves (fun a b => Value.sameKey a.value b.value) ms (keptMembers ms) :=
  Value.leaves_keptBy _ ms

/-- Of the names of kept members there is one for each key exactly if the keys are told apart. -/
theorem apartIff_keptMembers {ms : List (Valued × Valued)} {names : List String}
    (hkeys : ∀ m ∈ ms, m.1.value.isKey = true)
    (hnames : List.Forall₂ (fun m n => m.1.value.name = .ok n) (keptMembers ms) names) :
    ApartIff (ms.map fun m => m.1.value) names := by
  have hleaves := leaves_keptMembers ms
  have hstored : ∀ s ∈ (keptMembers ms).map fun m => m.1.value, s ∈ ms.map fun m => m.1.value := by
    intro s hs
    obtain ⟨m, hm, rfl⟩ := List.mem_map.mp hs
    obtain ⟨m', hm', hkey⟩ := hleaves.keys m hm
    exact List.mem_map.mpr ⟨m', hm', by rw [hkey]⟩
  have hfound : ∀ k ∈ ms.map fun m => m.1.value,
      ∃ s ∈ (keptMembers ms).map fun m => m.1.value, Value.sameKey s k = true := by
    intro k hk
    obtain ⟨m, hm, rfl⟩ := List.mem_map.mp hk
    obtain ⟨s, hs, hsame⟩ := hleaves.found (fun m hm => Value.sameKey_refl (hkeys m hm)) m hm
    exact ⟨_, List.mem_map_of_mem hs, hsame⟩
  exact Value.onePerKey_iff (List.forall_mem_map.mpr hkeys) hstored (List.pairwise_map.mpr hleaves.apart)
    hfound (List.forall₂_map_left_iff.mpr hnames)

/-- A node becomes the document of its value. -/
theorem hereditary_becomes :
    Hereditary fun n => ∀ x v, n.result = .ok x → x.toJson = .ok v → n.Becomes ApartIff v := by
  intro n hformed hparts x v hresult hv
  cases hformed.made hresult with
  | loop => cases hv
  | scalar _ _ _ hkey => exact .scalar hresult hkey hv
  | list htag hsound =>
    rw [Value.toJson] at hv
    obtain ⟨vs, hvs, hv⟩ := exists_of_bind_eq_ok hv
    cases hv
    -- each part stands over against what it is written as, in the order of the parts
    obtain ⟨hlength, hzip⟩ :=
      List.forall₂_iff_zip.mp (List.forall₂_map_left_iff.mp (Value.of_itemsToJson hvs))
    refine .list htag hlength fun p hp => ?_
    have hi := (List.of_mem_zip hp).1
    exact hparts _ (.item htag hi) _ _ (hsound _ hi) (hzip hp)
  | pairs htag hsound =>
    rw [Value.toJson] at hv
    obtain ⟨vs, hvs, hv⟩ := exists_of_bind_eq_ok hv
    cases hv
    obtain ⟨ps, rfl, hps⟩ := Value.of_pairsToJson hvs
    obtain ⟨hlength, hzip⟩ := List.forall₂_iff_zip.mp (List.forall₂_map_left_iff.mp hps)
    refine .pairs htag hlength (fun p hp => ?_) fun p hp => ?_
    · obtain ⟨i, hi, hm⟩ := List.mem_flatMap.mp (List.of_mem_zip hp).1
      exact hparts _ (.pairKey htag hi hm) _ _ (hsound i hi _ hm).1 (hzip hp).1
    · obtain ⟨i, hi, hm⟩ := List.mem_flatMap.mp (List.of_mem_zip hp).1
      exact hparts _ (.pairValue htag hi hm) _ _ (hsound i hi _ hm).2 (hzip hp).2
  | @set ms htag hentries hsound =>
    rw [Value.toJson, ← map_keptMembers, List.map_map] at hv
    obtain ⟨vs, hvs, hv⟩ := exists_of_bind_eq_ok hv
    cases hv
    obtain ⟨hlength, hzip⟩ :=
      List.forall₂_iff_zip.mp (List.forall₂_map_left_iff.mp (Value.of_itemsToJson hvs))
    refine .set htag hentries hlength fun p hp => ?_
    obtain ⟨m, hm, hkey⟩ := (leaves_keptMembers ms).keys p.1 (List.of_mem_zip hp).1
    rw [← hkey]
    refine hparts _ (.key (.inr htag) hentries hm) _ _ (hsound m hm).1 ?_
    rw [hkey]
    exact hzip hp
  | @map ms htag hentries hsound =>
    rw [Value.toJson, ← map_keptMembers] at hv
    obtain ⟨members, hmembers, hv⟩ := exists_of_bind_eq_ok hv
    cases hv
    have hboth := List.forall₂_map_left_iff.mp (Value.of_membersToJson hmembers)
    obtain ⟨hlength, hzip⟩ := List.forall₂_iff_zip.mp hboth
    refine .map htag hentries hlength (fun p hp => (hzip hp).1) (fun p hp => ?_) ?_
    · obtain ⟨m, hm, hvalue⟩ := (leaves_keptMembers ms).values p.1 (List.of_mem_zip hp).1
      rw [← hvalue]
      refine hparts _ (.value (.inl htag) hentries hm) _ _ (hsound m hm).2.2 ?_
      rw [hvalue]
      exact (hzip hp).2
    · exact apartIff_keptMembers (fun m hm => (hsound m hm).2.1)
        (List.forall₂_map_right_iff.mpr (hboth.imp fun _ _ h => h.1))

/-- A node becomes the document that its value is written as, and of the members of every object there is
one for each key of the mapping it comes from exactly if these keys are told apart. -/
theorem becomes_valuate {n : Node} {x : Value} {v : Json} (hx : n.toValue = .ok x)
    (hv : x.toJson = .ok v) : n.valuate.Becomes ApartIff v := by
  refine forall_valuate hereditary_becomes n x v ?_ hv
  rw [Node.toValue] at hx
  split at hx
  · next y hresult =>
    cases hx
    exact hresult
  · cases hx

end Valued

/-! ## Texts -/

/-- What a text with a JSON document is read as. -/
theorem exists_of_readChars {cs : List Char} {v : Json} (h : readChars cs = .ok v) :
    (Node.ofStream (.ofChars cs) = .ok none ∧ v = .null) ∨
      ∃ root x, Node.ofStream (.ofChars cs) = .ok (some root) ∧ root.toValue = .ok x ∧ x.toJson = .ok v ∧
        v.depth ≤ Json.Reader.depthLimit := by
  rw [readChars] at h
  split at h
  · cases h
  obtain ⟨document, hdocument, h⟩ := exists_of_bind_eq_ok h
  cases document with
  | none =>
    cases h
    exact .inl ⟨hdocument, rfl⟩
  | some root =>
    obtain ⟨x, hx, h⟩ := exists_of_bind_eq_ok h
    split at h
    · next w hw =>
      split at h
      · cases h
      · next hdepth =>
        cases h
        exact .inr ⟨root, x, hdocument, hx, hw, Nat.not_lt.mp hdepth⟩
    · cases h

end DocDesk.Yaml
