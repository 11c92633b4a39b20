import DocDesk.Proofs.Yaml.Fault.Token
import DocDesk.Yaml.Value

/-!
# Parts of valued nodes

The value of a node is made of those of its parts: the items of a sequence, the keys and values of a
mapping with the ones that merge keys bring in, the keys and values of single members.  What holds of a
node as soon as it holds of the parts holds of every node.

Main statement: `Valued.forall_valuate`.
-/

namespace DocDesk.Yaml

/-- A part that the value of a node is made of. -/
inductive Valued.Part (n : Valued) : Valued → Prop
  | item {i : Valued} : n.tag = Tag.core "seq" → i ∈ n.items → Part n i
  | key {ms : List (Valued × Valued)} {m : Valued × Valued} :
      n.tag = Tag.core "map" ∨ n.tag = Tag.core "set" → n.entries = .ok ms → m ∈ ms → Part n m.1
  | value {ms : List (Valued × Valued)} {m : Valued × Valued} :
      n.tag = Tag.core "map" ∨ n.tag = Tag.core "set" → n.entries = .ok ms → m ∈ ms → Part n m.2
  | pairKey {i : Valued} {m : Valued × Valued} :
      n.tag = Tag.core "omap" ∨ n.tag = Tag.core "pairs" → i ∈ n.items → m ∈ i.raw → Part n m.1
  | pairValue {i : Valued} {m : Valued × Valued} :
      n.tag = Tag.core "omap" ∨ n.tag = Tag.core "pairs" → i ∈ n.items → m ∈ i.raw → Part n m.2

/-- A fault that is told with its place is one of the form. -/
theorem isMalformed_fault {context : Option Context} {since : Option Mark} {problem : Problem}
    {place : Mark} : (fault context since problem place).IsMalformed := ⟨_, rfl⟩

/-- A step that succeeds has no fault. -/
theorem isMalformed_of_ok {a : α} : ∀ f, (Except.ok a : Except Fault α) = .error f → f.IsMalformed := by
  intro f h
  cases h

/-- A step that fails with a fault of the form has no other. -/
theorem isMalformed_of_fault {context : Option Context} {since : Option Mark} {problem : Problem}
    {place : Mark} : ∀ f, (Except.error (fault context since problem place) : Except Fault α) = .error f →
      f.IsMalformed := by
  intro f h
  cases h
  exact isMalformed_fault

/-- Where a node has no scalar to count as, or no members, the text is malformed. -/
structure Valued.Malforms (n : Valued) : Prop where
  text : ∀ f, n.text = .error f → f.IsMalformed
  entries : ∀ f, n.entries = .error f → f.IsMalformed

/-- A node that has its value by its tag, or that is a node around it. -/
inductive Valued.Formed (n : Valued) : Prop
  | tagged : n.result = Node.result n.kind n.start n.tag n.text n.items n.entries → n.Malforms → Formed n
  | loop : n.result = .ok .loop → n.tag = "" → Formed n

namespace Valued

/-- A property that a node has as soon as its parts have it. -/
def Hereditary (P : Valued → Prop) : Prop := ∀ n : Valued, n.Formed → (∀ p, n.Part p → P p) → P n

/-- A scalar is made of nothing else. -/
theorem not_part_of_ofScalar? {n p : Valued} {kind : NodeKind} {start : Mark}
    {make : List Char → Except LevelFault Value} (h : Node.ofScalar? n.tag kind start = some make) :
    ¬n.Part p := by
  intro hpart
  cases hpart with
  | item htag =>
    rw [htag] at h
    cases h
  | key htag | value htag | pairKey htag | pairValue htag =>
    rcases htag with htag | htag
    · rw [htag] at h
      cases h
    · rw [htag] at h
      cases h

/-- The members of mappings in a row, in front of others: the later a mapping, the further in front. -/
def gathered (start : Mark) (items : List Valued) (others : Except Fault (List (Valued × Valued))) :
    Except Fault (List (Valued × Valued)) :=
  items.foldl (fun acc item => do
    let later ← acc
    if item.kind = .mapping then
      let ms ← item.entries
      .ok (ms ++ later)
    else .error (fault (some (.constructing "a mapping")) (some start) (.mergeItem item.kind) item.start))
    others

section Induction

variable {P : Valued → Prop}

/-- The property holds of a node and of all that nodes around it may take for their parts. -/
inductive Carries (P : Valued → Prop) : Valued → Prop
  | mk {n : Valued} : P n → n.Malforms → (∀ i ∈ n.items, Carries P i) → (∀ m ∈ n.raw, Carries P m.1) →
      (∀ m ∈ n.raw, Carries P m.2) → (∀ ms, n.entries = .ok ms → ∀ m ∈ ms, P m.1 ∧ P m.2) → Carries P n

/-- What a node carries it has itself. -/
theorem Carries.self {n : Valued} (h : Carries P n) : P n := by
  cases h with
  | mk hself => exact hself

/-- A node that carries something has entries that fail only for their form. -/
theorem Carries.malforms {n : Valued} (h : Carries P n) : n.Malforms := by
  cases h with
  | mk _ hmalforms => exact hmalforms

/-- Its items carry the same. -/
theorem Carries.items {n : Valued} (h : Carries P n) : ∀ i ∈ n.items, Carries P i := by
  cases h with
  | mk _ _ hitems => exact hitems

/-- So do its members as they are written. -/
theorem Carries.raw {n : Valued} (h : Carries P n) : ∀ m ∈ n.raw, Carries P m.1 ∧ Carries P m.2 := by
  cases h with
  | mk _ _ _ hkeys hvalues => exact fun m hm => ⟨hkeys m hm, hvalues m hm⟩

/-- The members that it has with those merged into it have the same. -/
theorem Carries.entries {n : Valued} (h : Carries P n) :
    ∀ ms, n.entries = .ok ms → ∀ m ∈ ms, P m.1 ∧ P m.2 := by
  cases h with
  | mk _ _ _ _ _ hentries => exact hentries

/-- Members gathered from the items of a merge have what the items carry. -/
theorem forall_mem_gathered {start : Mark} {items : List Valued} {ms : List (Valued × Valued)}
    {others : Except Fault (List (Valued × Valued))} (hitems : ∀ i ∈ items, Carries P i)
    (hothers : ∀ ns, others = .ok ns → ∀ m ∈ ns, P m.1 ∧ P m.2)
    (h : gathered start items others = .ok ms) : ∀ m ∈ ms, P m.1 ∧ P m.2 := by
  induction items generalizing others with
  | nil => exact hothers ms h
  | cons i items ih =>
    obtain ⟨hi, hitems⟩ := List.forall_mem_cons.mp hitems
    refine ih hitems (fun ns hns => ?_) h
    obtain ⟨later, hlater, hns⟩ := exists_of_bind_eq_ok hns
    split at hns
    · obtain ⟨own, hown, hns⟩ := exists_of_bind_eq_ok hns
      cases hns
      exact List.forall_mem_append.mpr ⟨hi.entries own hown, hothers later hlater⟩
    · cases hns

/-- Gathering members fails only for the form of the items. -/
theorem isMalformed_gathered {start : Mark} {items : List Valued} {f : Fault}
    {others : Except Fault (List (Valued × Valued))} (hitems : ∀ i ∈ items, Carries P i)
    (hothers : ∀ g, others = .error g → g.IsMalformed)
    (h : gathered start items others = .error f) : f.IsMalformed := by
  induction items generalizing others with
  | nil => exact hothers f h
  | cons i items ih =>
    obtain ⟨hi, hitems⟩ := List.forall_mem_cons.mp hitems
    refine ih hitems (fun g hg => ?_) h
    rcases error_of_bind_eq_error hg with hg | ⟨later, -, hg⟩
    · exact hothers g hg
    · split at hg
      · rcases error_of_bind_eq_error hg with hg | ⟨own, -, hg⟩
        · exact hi.malforms.entries g hg
        · cases hg
      · cases hg
        exact ⟨_, rfl⟩

/-- Merging a value fails only for its form. -/
theorem isMalformed_merged {start : Mark} {value : Valued} {f : Fault} (hvalue : Carries P value)
    (h : Node.merged start value = .error f) : f.IsMalformed := by
  rw [Node.merged] at h
  split at h
  · cases h
  · split at h
    · exact hvalue.malforms.entries f h
    · exact isMalformed_gathered hvalue.items isMalformed_of_ok h
    · cases h
      exact ⟨_, rfl⟩

/-- Where a mapping counts as no scalar, or merge keys bring in no members, the text is malformed. -/
theorem malforms_mapping (start : Mark) {raw : List (Valued × Valued)}
    (hraw : ∀ m ∈ raw, Carries P m.1 ∧ Carries P m.2) :
    (∀ f, Node.defaultText start raw = .error f → f.IsMalformed) ∧
      ∀ f, Node.withMerges start raw = .error f → f.IsMalformed := by
  constructor
  · intro f h
    rw [Node.defaultText] at h
    split at h
    · next m hm => exact (hraw m (List.mem_of_find?_eq_some hm)).2.malforms.text f h
    · cases h
      exact ⟨_, rfl⟩
  · intro f h
    rcases error_of_bind_eq_error h with h | ⟨found, -, h⟩
    · obtain ⟨m, hm, hmerged⟩ := exists_of_mapM_eq_error h
      exact isMalformed_merged (hraw m (List.mem_filter.mp hm).1).2 hmerged
    · cases h

variable (hparts : Hereditary P)
include hparts

/-- The node carries a property if its items, its members and its entries do. -/
theorem Carries.of_children {n : Valued} (hformed : n.Formed) (hmalforms : n.Malforms)
    (hitems : ∀ i ∈ n.items, Carries P i) (hraw : ∀ m ∈ n.raw, Carries P m.1 ∧ Carries P m.2)
    (hentries : ∀ ms, n.entries = .ok ms → ∀ m ∈ ms, P m.1 ∧ P m.2) : Carries P n := by
  refine .mk (hparts n hformed fun p hpart => ?_) hmalforms hitems (fun m hm => (hraw m hm).1)
    (fun m hm => (hraw m hm).2) hentries
  cases hpart with
  | item _ hi => exact (hitems _ hi).self
  | key _ hms hm => exact (hentries _ hms _ hm).1
  | value _ hms hm => exact (hentries _ hms _ hm).2
  | pairKey _ hi hm => exact ((hitems _ hi).raw _ hm).1.self
  | pairValue _ hi hm => exact ((hitems _ hi).raw _ hm).2.self

/-- A node without items and members carries a property by itself. -/
theorem Carries.leaf {n : Valued} (hformed : n.Formed) (hmalforms : n.Malforms) (hitems : n.items = [])
    (hraw : n.raw = []) (hentries : n.entries = .ok []) : Carries P n := by
  refine .of_children hparts hformed hmalforms ?_ ?_ fun ms hms => ?_
  · rw [hitems]
    exact List.forall_mem_nil _
  · rw [hraw]
    exact List.forall_mem_nil _
  · rw [hentries] at hms
    cases hms
    exact List.forall_mem_nil _

/-- A property of all parts is one of texts, which have none. -/
theorem of_str {n : Valued} (hformed : n.Formed) (htag : n.tag = Tag.core "str") : P n := by
  have hscalar : Node.ofScalar? n.tag n.kind n.start = some fun cs => .ok (.str cs) := by
    rw [htag]
    rfl
  exact hparts n hformed fun _ hpart => absurd hpart (not_part_of_ofScalar? hscalar)

/-- A key that is taken as plain text has what it carried. -/
theorem of_plainKey {key : Valued} (h : Carries P key) : P (Node.plainKey key) := by
  have hmalforms := h.malforms
  rw [Node.plainKey.eq_def]
  split
  · obtain ⟨kind, start, tag, text, result, items, raw, entries⟩ := key
    exact of_str hparts (.tagged rfl ⟨hmalforms.text, hmalforms.entries⟩) rfl
  · exact h.self

/-- The members that a merge key brings in are those of the mappings under it. -/
theorem forall_mem_merged {start : Mark} {value : Valued} {ms : List (Valued × Valued)}
    (hvalue : Carries P value) (h : Node.merged start value = .ok ms) : ∀ m ∈ ms, P m.1 ∧ P m.2 := by
  rw [Node.merged] at h
  split at h
  · cases h
    exact List.forall_mem_singleton.mpr
      ⟨of_str hparts (.tagged rfl ⟨isMalformed_of_ok, isMalformed_of_ok⟩) rfl, hvalue.self⟩
  · split at h
    · exact hvalue.entries ms h
    · refine forall_mem_gathered hvalue.items (fun ns hns => ?_) h
      cases hns
      exact List.forall_mem_nil _
    · cases h

/-- Members with those merged in front of them have what all members carry. -/
theorem forall_mem_withMerges {start : Mark} {raw ms : List (Valued × Valued)}
    (hraw : ∀ m ∈ raw, Carries P m.1 ∧ Carries P m.2) (h : Node.withMerges start raw = .ok ms) :
    ∀ m ∈ ms, P m.1 ∧ P m.2 := by
  obtain ⟨found, hfound, h⟩ := exists_of_bind_eq_ok h
  cases h
  refine List.forall_mem_append.mpr ⟨?_, ?_⟩
  · intro m hm
    obtain ⟨ns, hns, hm⟩ := List.mem_flatten.mp hm
    obtain ⟨merge, hmerge, hns⟩ := exists_of_mem_mapM hfound hns
    exact forall_mem_merged hparts (hraw merge (List.mem_filter.mp hmerge).1).2 hns m hm
  · intro m hm
    obtain ⟨m', hm', rfl⟩ := List.mem_map.mp hm
    have hcarries := hraw m' (List.mem_filter.mp hm').1
    exact ⟨of_plainKey hparts hcarries.1, hcarries.2.self⟩

omit hparts

mutual

/-- What is hereditary holds everywhere in the values of a node. -/
theorem carries_valuate (hparts : Hereditary P) (n : Node) : Carries P n.valuate := by
  match n with
  | .scalar tag text start =>
    have hmalforms : (Node.scalar tag text start).valuate.Malforms := by
      simp only [Node.valuate]
      exact ⟨isMalformed_of_ok, isMalformed_of_ok⟩
    simp only [Node.valuate] at hmalforms ⊢
    exact .leaf hparts (.tagged rfl hmalforms) hmalforms rfl rfl rfl
  | .sequence tag items start =>
    have hitems := carries_valuateItems hparts items
    have hmalforms : (Node.sequence tag items start).valuate.Malforms := by
      simp only [Node.valuate]
      exact ⟨isMalformed_of_fault, isMalformed_of_ok⟩
    simp only [Node.valuate] at hmalforms ⊢
    refine .of_children hparts (.tagged rfl hmalforms) hmalforms hitems (List.forall_mem_nil _)
      fun ms hms => ?_
    cases hms
    exact List.forall_mem_nil _
  | .mapping tag entries start =>
    have hraw := carries_valuateEntries hparts entries
    have hmalforms : (Node.mapping tag entries start).valuate.Malforms := by
      simp only [Node.valuate]
      exact ⟨(malforms_mapping start hraw).1, (malforms_mapping start hraw).2⟩
    simp only [Node.valuate] at hmalforms ⊢
    exact .of_children hparts (.tagged rfl hmalforms) hmalforms (List.forall_mem_nil _) hraw
      fun ms hms => forall_mem_withMerges hparts hraw hms
  | .loop kind start =>
    have hmalforms : (Node.loop kind start).valuate.Malforms := by
      simp only [Node.valuate]
      exact ⟨isMalformed_of_fault, isMalformed_of_ok⟩
    simp only [Node.valuate] at hmalforms ⊢
    exact .leaf hparts (.loop rfl rfl) hmalforms rfl rfl rfl

theorem carries_valuateItems (hparts : Hereditary P) (ns : List Node) :
    ∀ i ∈ Node.valuateItems ns, Carries P i := by
  match ns with
  | [] => exact List.forall_mem_nil _
  | n :: ns =>
    rw [Node.valuateItems, List.forall_mem_cons]
    exact ⟨carries_valuate hparts n, carries_valuateItems hparts ns⟩

theorem carries_valuateEntries (hparts : Hereditary P) (es : List (Node × Node)) :
    ∀ m ∈ Node.valuateEntries es, Carries P m.1 ∧ Carries P m.2 := by
  match es with
  | [] => exact List.forall_mem_nil _
  | (k, v) :: es =>
    rw [Node.valuateEntries, List.forall_mem_cons]
    exact ⟨⟨carries_valuate hparts k, carries_valuate hparts v⟩, carries_valuateEntries hparts es⟩

end

/-- What holds of a node as soon as it holds of its parts holds of every valued node. -/
theorem forall_valuate (hparts : Hereditary P) (n : Node) : P n.valuate := (carries_valuate hparts n).self

end Induction

/-! ## How values are made -/

/-- The node has a value. -/
def Sound (n : Valued) : Prop := n.result = .ok n.value

/-- A node is sound exactly if it has no fault. -/
theorem sound_iff {n : Valued} : n.Sound ↔ n.fault? = none := by
  unfold Sound value fault?
  cases n.result <;> simp

/-- A node with a result is sound, and the result is its value. -/
theorem Sound.of_result {n : Valued} {x : Value} (h : n.result = .ok x) : n.Sound ∧ n.value = x := by
  unfold Sound value
  rw [h]
  exact ⟨rfl, rfl⟩

/-- How the value of a node is made of those of its parts. -/
inductive Made (n : Valued) : Value → Prop
  | scalar {make : List Char → Except LevelFault Value} {cs : List Char} {x : Value} :
      Node.ofScalar? n.tag n.kind n.start = some make → n.text = .ok cs → make cs = .ok x →
      x.isKey = true → Made n x
  | list : n.tag = Tag.core "seq" → (∀ i ∈ n.items, i.Sound) → Made n (.list (n.items.map value))
  | map {ms : List (Valued × Valued)} : n.tag = Tag.core "map" → n.entries = .ok ms →
      (∀ m ∈ ms, m.1.Sound ∧ m.1.value.isKey = true ∧ m.2.Sound) → Made n (.map (Node.memberValues ms))
  | set {ms : List (Valued × Valued)} : n.tag = Tag.core "set" → n.entries = .ok ms →
      (∀ m ∈ ms, m.1.Sound ∧ m.1.value.isKey = true ∧ m.2.Sound) →
      Made n (.set ((Node.memberValues ms).map Prod.fst))
  | pairs : n.tag = Tag.core "omap" ∨ n.tag = Tag.core "pairs" →
      (∀ i ∈ n.items, ∀ m ∈ i.raw, m.1.Sound ∧ m.2.Sound) →
      Made n (.pairs ((n.items.flatMap raw).map fun m => (m.1.value, m.2.value)))
  | loop : n.tag = "" → Made n .loop

/-- There is no earlier of two faults exactly if there is neither. -/
theorem earlier_eq_none_iff {a b : Option LevelFault} : earlier a b = none ↔ a = none ∧ b = none := by
  cases a <;> cases b <;> simp [earlier]

/-- A fault moved one level down is none exactly if it was none. -/
theorem below_eq_none_iff {a : Option LevelFault} : below a = none ↔ a = none := by
  cases a <;> simp [below]

/-- There is no first fault exactly if all parts are sound. -/
theorem firstFault_eq_none_iff {parts : List Valued} :
    Node.firstFault parts = none ↔ ∀ p ∈ parts, p.Sound := by
  induction parts with
  | nil => simp [Node.firstFault]
  | cons p parts ih =>
    rw [Node.firstFault] at ih ⊢
    rw [List.foldr_cons, earlier_eq_none_iff, ih, List.forall_mem_cons, sound_iff]

/-- Without a fault in the members all keys and values are sound, and the keys can be keys. -/
theorem memberFault_eq_none {start : Mark} {ms : List (Valued × Valued)}
    (h : Node.memberFault start ms = none) :
    ∀ m ∈ ms, m.1.Sound ∧ m.1.value.isKey = true ∧ m.2.Sound := by
  induction ms with
  | nil => exact List.forall_mem_nil _
  | cons m ms ih =>
    rw [Node.memberFault] at ih h
    rw [List.foldr_cons, earlier_eq_none_iff, earlier_eq_none_iff, earlier_eq_none_iff] at h
    obtain ⟨hkey, hunusable, hvalue, hrest⟩ := h
    refine List.forall_mem_cons.mpr ⟨⟨sound_iff.mpr hkey, ?_, sound_iff.mpr hvalue⟩, ih hrest⟩
    have hsound := sound_iff.mpr hkey
    unfold Sound at hsound
    simp only [Node.notKey, hsound, ite_eq_right_iff, reduceCtorEq, imp_false, Bool.not_eq_true,
      Bool.not_eq_false'] at hunusable
    exact hunusable

/-- Without a fault in a pair its key and value are sound. -/
theorem pairFault_eq_none {what : String} {start : Mark} {i : Valued}
    (h : Node.pairFault what start i = none) : ∀ m ∈ i.raw, m.1.Sound ∧ m.2.Sound := by
  rw [Node.pairFault] at h
  dsimp only at h
  split at h
  · cases h
  · split at h
    · next key value hraw =>
      obtain ⟨hkey, hvalue⟩ := earlier_eq_none_iff.mp h
      rw [hraw]
      exact List.forall_mem_singleton.mpr ⟨sound_iff.mpr hkey, sound_iff.mpr hvalue⟩
    · cases h

/-- The same for a list of pairs. -/
theorem pairFaults_eq_none {what : String} {start : Mark} {items : List Valued}
    (h : items.foldr (fun i f => earlier (Node.pairFault what start i) f) none = none) :
    ∀ i ∈ items, ∀ m ∈ i.raw, m.1.Sound ∧ m.2.Sound := by
  induction items with
  | nil => exact List.forall_mem_nil _
  | cons i items ih =>
    rw [List.foldr_cons, earlier_eq_none_iff] at h
    exact List.forall_mem_cons.mpr ⟨pairFault_eq_none h.1, ih h.2⟩

/-- The result of a sequence is the list of the values of its items, all of them sound. -/
theorem of_listResult {kind : NodeKind} {start : Mark} {items : List Valued} {x : Value}
    (h : Node.listResult kind start items = .ok x) :
    (∀ i ∈ items, i.Sound) ∧ .list (items.map Valued.value) = x := by
  rw [Node.listResult] at h
  split at h
  · cases h
  · split at h
    · cases h
    · next hfault =>
      cases h
      exact ⟨firstFault_eq_none_iff.mp (below_eq_none_iff.mp hfault), rfl⟩

/-- The result of a mapping is made of the values of its members, all of them sound. -/
theorem of_mapResult {kind : NodeKind} {start : Mark} {entries : Except Fault (List (Valued × Valued))}
    {make : List (Value × Value) → Value} {x : Value}
    (h : Node.mapResult kind start entries make = .ok x) : ∃ ms, entries = .ok ms ∧
      (∀ m ∈ ms, m.1.Sound ∧ m.1.value.isKey = true ∧ m.2.Sound) ∧ make (Node.memberValues ms) = x := by
  rw [Node.mapResult.eq_def] at h
  split at h
  · cases h
  · split at h
    · cases h
    · next ms =>
      split at h
      · cases h
      · next hfault =>
        cases h
        exact ⟨ms, rfl, memberFault_eq_none (below_eq_none_iff.mp hfault), rfl⟩

/-- The result of a list of pairs is made of the values in them, all of them sound. -/
theorem of_pairsResult {what : String} {kind : NodeKind} {start : Mark} {items : List Valued} {x : Value}
    (h : Node.pairsResult what kind start items = .ok x) :
    (∀ i ∈ items, ∀ m ∈ i.raw, m.1.Sound ∧ m.2.Sound) ∧
      .pairs ((items.flatMap raw).map fun m => (m.1.value, m.2.value)) = x := by
  rw [Node.pairsResult] at h
  split at h
  · cases h
  · split at h
    · cases h
    · next hfault =>
      cases h
      exact ⟨pairFaults_eq_none (below_eq_none_iff.mp hfault), rfl⟩

/-- Placing a fault changes no value. -/
theorem valued_eq_ok_iff {r : Except ValueFault Value} {x : Value} :
    Node.valued r = .ok x ↔ r = .ok x := by
  cases r <;> simp [Node.valued]

/-- A boolean can be a key. -/
theorem isKey_of_toBool {cs : List Char} {x : Value} (h : Node.toBool cs = .ok x) : x.isKey = true := by
  rw [Node.toBool] at h
  split at h
  · cases h
    rfl
  · cases h

/-- Bytes can be a key. -/
theorem isKey_of_toBytes {start : Mark} {cs : List Char} {x : Value}
    (h : Node.toBytes start cs = .ok x) : x.isKey = true := by
  rw [Node.toBytes] at h
  split at h
  · cases h
  split at h
  · cases h
    rfl
  · cases h

/-- A moment can be a key. -/
theorem isKey_of_toTime {cs : List Char} {x : Value} (h : Node.toTime cs = .ok x) : x.isKey = true := by
  rw [Node.toTime] at h
  split at h
  · cases h
  split at h
  · cases h
  · cases h
    rfl

/-- A scalar stands for a value that can be a key. -/
theorem isKey_of_ofScalar? {tag : String} {kind : NodeKind} {start : Mark}
    {make : List Char → Except LevelFault Value} (h : Node.ofScalar? tag kind start = some make)
    {cs : List Char} {x : Value} (hx : make cs = .ok x) : x.isKey = true := by
  unfold Node.ofScalar? at h
  split at h
  · -- null
    cases h
    cases hx
    rfl
  split at h
  · -- bool
    cases h
    exact isKey_of_toBool (valued_eq_ok_iff.mp hx)
  split at h
  · -- int
    cases h
    obtain ⟨i, -, rfl⟩ := exists_of_map_eq_ok (valued_eq_ok_iff.mp hx)
    rfl
  split at h
  · -- float
    cases h
    obtain ⟨y, -, rfl⟩ := exists_of_map_eq_ok (valued_eq_ok_iff.mp hx)
    rfl
  split at h
  · -- str
    cases h
    cases hx
    rfl
  split at h
  · -- binary
    cases h
    exact isKey_of_toBytes hx
  split at h
  · -- timestamp
    cases h
    rw [valued_eq_ok_iff] at hx
    split at hx
    · exact isKey_of_toTime hx
    · cases hx
  · cases h

/-- The value of a node is made of those of its parts. -/
theorem Formed.made {n : Valued} {x : Value} (hformed : n.Formed) (h : n.result = .ok x) : n.Made x := by
  cases hformed with
  | loop hloop htag =>
    rw [hloop] at h
    cases h
    exact .loop htag
  | tagged htagged =>
    rw [htagged, Node.result] at h
    split at h
    · next make hmake =>
      split at h
      · next cs hcs => exact .scalar hmake hcs h (isKey_of_ofScalar? hmake h)
      · cases h
    split at h
    · next htag =>
      obtain ⟨hsound, rfl⟩ := of_listResult h
      exact .list htag hsound
    split at h
    · next htag =>
      obtain ⟨ms, hms, hsound, rfl⟩ := of_mapResult h
      exact .map htag hms hsound
    split at h
    · next htag =>
      obtain ⟨ms, hms, hsound, rfl⟩ := of_mapResult h
      exact .set htag hms hsound
    split at h
    · next htag =>
      obtain ⟨hsound, rfl⟩ := of_pairsResult h
      exact .pairs (.inl htag) hsound
    split at h
    · next htag =>
      obtain ⟨hsound, rfl⟩ := of_pairsResult h
      exact .pairs (.inr htag) hsound
    · cases h

/-! ## How values fail -/

/-- Why a node has no value: the text is malformed, its scalar does not stand for a value of its tag, or a
part has none. -/
inductive Failed (n : Valued) : Fault → Prop
  | malformed {f : Fault} : f.IsMalformed → Failed n f
  | scalar {make : List Char → Except LevelFault Value} {cs : List Char} {level : Nat} {f : Fault} :
      Node.ofScalar? n.tag n.kind n.start = some make → n.text = .ok cs → make cs = .error (level, f) →
      Failed n f
  | part {p : Valued} {level : Nat} {f : Fault} : n.Part p → p.result = .error (level, f) → Failed n f

/-- The earlier of two faults is one of them. -/
theorem earlier_eq_some {a b : Option LevelFault} {f : LevelFault} (h : earlier a b = some f) :
    a = some f ∨ b = some f := by
  unfold earlier at h
  split at h
  · exact .inr h
  · exact .inl h
  · split at h
    · exact .inr h
    · exact .inl h

/-- The fault of a node is the one that its result fails with. -/
theorem fault?_eq_some_iff {n : Valued} {f : LevelFault} : n.fault? = some f ↔ n.result = .error f := by
  unfold fault?
  cases n.result <;> simp

/-- The first fault of some parts is the fault of one of them. -/
theorem exists_of_firstFault {items : List Valued} {f : LevelFault}
    (h : Node.firstFault items = some f) : ∃ i ∈ items, i.result = .error f := by
  induction items with
  | nil => cases h
  | cons i items ih =>
    rw [Node.firstFault, List.foldr_cons] at h
    rcases earlier_eq_some h with h | h
    · exact ⟨i, List.mem_cons_self, fault?_eq_some_iff.mp h⟩
    · obtain ⟨j, hj, hresult⟩ := ih h
      exact ⟨j, List.mem_cons_of_mem _ hj, hresult⟩

/-- A fault of members is one of the form, or that of a key or a value. -/
theorem exists_of_memberFault {start : Mark} {ms : List (Valued × Valued)} {f : LevelFault}
    (h : Node.memberFault start ms = some f) :
    f.2.IsMalformed ∨ ∃ m ∈ ms, m.1.result = .error f ∨ m.2.result = .error f := by
  induction ms with
  | nil => cases h
  | cons m ms ih =>
    rw [Node.memberFault, List.foldr_cons] at h
    rcases earlier_eq_some h with h | h
    · exact .inr ⟨m, List.mem_cons_self, .inl (fault?_eq_some_iff.mp h)⟩
    rcases earlier_eq_some h with h | h
    · split at h
      · cases h
        exact .inl isMalformed_fault
      · cases h
    rcases earlier_eq_some h with h | h
    · exact .inr ⟨m, List.mem_cons_self, .inr (fault?_eq_some_iff.mp h)⟩
    · exact (ih h).imp id fun ⟨m', hm', hresult⟩ => ⟨m', List.mem_cons_of_mem _ hm', hresult⟩

/-- A fault of a pair is one of the form, or that of its key or its value. -/
theorem exists_of_pairFault {what : String} {start : Mark} {i : Valued} {f : LevelFault}
    (h : Node.pairFault what start i = some f) :
    f.2.IsMalformed ∨ ∃ m ∈ i.raw, m.1.result = .error f ∨ m.2.result = .error f := by
  rw [Node.pairFault] at h
  dsimp only at h
  split at h
  · cases h
    exact .inl isMalformed_fault
  · split at h
    · next key value hraw =>
      rw [hraw]
      refine .inr ⟨_, List.mem_cons_self, ?_⟩
      exact (earlier_eq_some h).imp fault?_eq_some_iff.mp fault?_eq_some_iff.mp
    · cases h
      exact .inl isMalformed_fault

/-- The same for a list of pairs. -/
theorem exists_of_pairFaults {what : String} {start : Mark} {items : List Valued} {f : LevelFault}
    (h : items.foldr (fun i f => earlier (Node.pairFault what start i) f) none = some f) :
    f.2.IsMalformed ∨ ∃ i ∈ items, ∃ m ∈ i.raw, m.1.result = .error f ∨ m.2.result = .error f := by
  induction items with
  | nil => cases h
  | cons i items ih =>
    rw [List.foldr_cons] at h
    rcases earlier_eq_some h with h | h
    · exact (exists_of_pairFault h).imp id fun hm => ⟨i, List.mem_cons_self, hm⟩
    · exact (ih h).imp id fun ⟨j, hj, hm⟩ => ⟨j, List.mem_cons_of_mem _ hj, hm⟩

/-- A fault moved one level down was there before. -/
theorem exists_of_below {a : Option LevelFault} {f : LevelFault} (h : below a = some f) :
    ∃ g, a = some g ∧ f.2 = g.2 := by
  obtain ⟨g, hg, rfl⟩ := Option.map_eq_some_iff.mp h
  exact ⟨g, hg, rfl⟩

/-- A sequence that fails does so for one of its parts. -/
theorem failed_of_listResult {n : Valued} {f : LevelFault} (htag : n.tag = Tag.core "seq")
    (h : Node.listResult n.kind n.start n.items = .error f) : n.Failed f.2 := by
  rw [Node.listResult] at h
  split at h
  · cases h
    exact .malformed isMalformed_fault
  split at h
  · next hbelow =>
    cases h
    obtain ⟨g, hg, heq⟩ := exists_of_below hbelow
    obtain ⟨i, hi, hresult⟩ := exists_of_firstFault hg
    rw [heq]
    exact .part (.item htag hi) hresult
  · cases h

/-- A mapping that fails does so for its form or for one of its parts. -/
theorem failed_of_mapResult {n : Valued} {f : LevelFault} {make : List (Value × Value) → Value}
    (hmalforms : n.Malforms) (htag : n.tag = Tag.core "map" ∨ n.tag = Tag.core "set")
    (h : Node.mapResult n.kind n.start n.entries make = .error f) : n.Failed f.2 := by
  rw [Node.mapResult.eq_def] at h
  split at h
  · cases h
    exact .malformed isMalformed_fault
  · split at h
    · next hentries =>
      cases h
      exact .malformed (hmalforms.entries _ hentries)
    · next ms hentries =>
      split at h
      · next hbelow =>
        cases h
        obtain ⟨g, hg, heq⟩ := exists_of_below hbelow
        rw [heq]
        rcases exists_of_memberFault hg with hmalformed | ⟨m, hm, hkey | hvalue⟩
        · exact .malformed hmalformed
        · exact .part (.key htag hentries hm) hkey
        · exact .part (.value htag hentries hm) hvalue
      · cases h

/-- A list of pairs that fails does so for its form or for one of its parts. -/
theorem failed_of_pairsResult {n : Valued} {f : LevelFault} {what : String}
    (htag : n.tag = Tag.core "omap" ∨ n.tag = Tag.core "pairs")
    (h : Node.pairsResult what n.kind n.start n.items = .error f) : n.Failed f.2 := by
  rw [Node.pairsResult] at h
  split at h
  · cases h
    exact .malformed isMalformed_fault
  · split at h
    · next hbelow =>
      cases h
      obtain ⟨g, hg, heq⟩ := exists_of_below hbelow
      rw [heq]
      rcases exists_of_pairFaults hg with hmalformed | ⟨i, hi, m, hm, hkey | hvalue⟩
      · exact .malformed hmalformed
      · exact .part (.pairKey htag hi hm) hkey
      · exact .part (.pairValue htag hi hm) hvalue
    · cases h

/-- A node that has no value fails for one of the reasons. -/
theorem Formed.failed {n : Valued} {f : LevelFault} (hformed : n.Formed) (h : n.result = .error f) :
    n.Failed f.2 := by
  cases hformed with
  | loop hloop =>
    rw [hloop] at h
    cases h
  | tagged htagged hmalforms =>
    rw [htagged, Node.result] at h
    split at h
    · next make hmake =>
      split at h
      · next cs hcs => exact .scalar hmake hcs h
      · next g hg =>
        cases h
        exact .malformed (hmalforms.text g hg)
    split at h
    · next htag => exact failed_of_listResult htag h
    split at h
    · next htag => exact failed_of_mapResult hmalforms (.inl htag) h
    split at h
    · next htag => exact failed_of_mapResult hmalforms (.inr htag) h
    split at h
    · next htag => exact failed_of_pairsResult (.inl htag) h
    split at h
    · next htag => exact failed_of_pairsResult (.inr htag) h
    · cases h
      exact .malformed isMalformed_fault

end Valued

end DocDesk.Yaml
