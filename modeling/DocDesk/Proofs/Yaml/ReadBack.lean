import DocDesk.Proofs.Json.Representable
import DocDesk.Proofs.Yaml.Kind
import Mathlib.Logic.Basic

/-!
# Documents as they are read back

A document that is written as YAML text and read again has its texts as their styles have them, and of two
names that are read alike one is lost.  Nothing else is changed: it is the same document exactly if its
texts are kept, as far as its names are short enough to be read at all.

Main statements: `representable_readBack` and `textsKept_iff`.
-/

namespace DocDesk.Yaml

open Writer (isSimpleKey)

/-- A text of a document as it is read back. -/
def readBackText (asKey : Bool) (s : String) : String := String.ofList (Style.readBack asKey s.toList)

/-- A name as it is read back. -/
def readBackName (name : String) : String := readBackText (isSimpleKey name.toList) name

mutual

/-- A document as it is read back from its own text. -/
def readBack : Json → Json
  | .null => .null
  | .bool b => .bool b
  | .int i => .int i
  | .float x => .float x
  | .str s => .str (readBackText false s)
  | .arr vs => .arr (readBackItems vs)
  | .obj ms => .obj (Json.ofPairs (readBackMembers ms))

/-- Items as they are read back. -/
def readBackItems : List Json → List Json
  | [] => []
  | v :: vs => readBack v :: readBackItems vs

/-- Members as they are read back, before names that are alike are found. -/
def readBackMembers : List (String × Json) → List (String × Json)
  | [] => []
  | (name, v) :: ms => (readBackName name, readBack v) :: readBackMembers ms

end

/-- Items are read back one by one. -/
theorem readBackItems_eq_map (vs : List Json) : readBackItems vs = vs.map readBack := by
  induction vs with
  | nil => rfl
  | cons v vs ih => rw [readBackItems, ih, List.map_cons]

/-- Members are read back one by one. -/
theorem readBackMembers_eq_map (ms : List (String × Json)) :
    readBackMembers ms = ms.map fun m => (readBackName m.1, readBack m.2) := by
  induction ms with
  | nil => rfl
  | cons m ms ih => rw [readBackMembers, ih, List.map_cons]

/-! ## What can be written of it -/

/-- What all items have when they are read back, the items have that are read back. -/
theorem forall_mem_readBackItems {P : Json → Prop} {vs : List Json} (h : ∀ v ∈ vs, P (readBack v)) :
    ∀ w ∈ readBackItems vs, P w := by
  rw [readBackItems_eq_map]
  exact List.forall_mem_map.mpr h

/-- The members that are left are among those that are read back. -/
theorem forall_mem_readBackMembers {P : Json → Prop} {ms : List (String × Json)}
    (h : ∀ m ∈ ms, P (readBack m.2)) : ∀ m ∈ Json.ofPairs (readBackMembers ms), P m.2 := by
  intro m hm
  have hmem := Json.mem_of_mem_ofPairs hm
  rw [readBackMembers_eq_map] at hmem
  obtain ⟨m', hm', rfl⟩ := List.mem_map.mp hmem
  exact h m' hm'

/-- What is said of the numbers in a document holds when it is read back. -/
theorem everywhere_readBack {P : Json → Prop} (htext : ∀ s, P (.str s)) (harr : ∀ vs, P (.arr vs))
    (hobj : ∀ ms, P (.obj ms)) {v : Json} (h : v.Everywhere P) : (readBack v).Everywhere P := by
  induction h with
  | @scalar v hscalar hv =>
    cases v with
    | arr _ | obj _ => cases hscalar
    | str s => exact .scalar rfl (htext _)
    | _ => exact .scalar rfl hv
  | arr _ _ ih => exact .arr (harr _) (forall_mem_readBackItems ih)
  | obj _ _ ih => exact .obj (hobj _) (forall_mem_readBackMembers ih)

mutual

/-- Names that are read alike are one name. -/
theorem distinctNames_readBack (v : Json) : (readBack v).DistinctNames := by
  match v with
  | .null | .bool _ | .int _ | .float _ | .str _ => exact .scalar rfl trivial
  | .arr vs => exact .arr trivial (distinctNames_readBackItems vs)
  | .obj ms =>
    exact .obj (Json.nodup_ofPairs _) fun m hm =>
      distinctNames_readBackMembers ms m (Json.mem_of_mem_ofPairs hm)

theorem distinctNames_readBackItems (vs : List Json) : ∀ w ∈ readBackItems vs, Json.DistinctNames w := by
  match vs with
  | [] => exact List.forall_mem_nil _
  | v :: vs =>
    rw [readBackItems]
    exact List.forall_mem_cons.mpr ⟨distinctNames_readBack v, distinctNames_readBackItems vs⟩

theorem distinctNames_readBackMembers (ms : List (String × Json)) :
    ∀ m ∈ readBackMembers ms, Json.DistinctNames m.2 := by
  match ms with
  | [] => exact List.forall_mem_nil _
  | (name, v) :: ms =>
    rw [readBackMembers]
    exact List.forall_mem_cons.mpr ⟨distinctNames_readBack v, distinctNames_readBackMembers ms⟩

end

mutual

/-- A document nests no deeper when it is read back. -/
theorem depth_readBack_le (v : Json) : (readBack v).depth ≤ v.depth := by
  match v with
  | .null | .bool _ | .int _ | .float _ | .str _ => exact Nat.le_refl _
  | .arr vs =>
    rw [readBack, Json.depth, Json.depth, Nat.add_le_add_iff_right, Json.depthItem_le_iff]
    exact depth_readBackItems_le vs
  | .obj ms =>
    rw [readBack, Json.depth, Json.depth, Nat.add_le_add_iff_right, Json.depthMember_le_iff]
    exact fun m hm => depth_readBackMembers_le ms m (Json.mem_of_mem_ofPairs hm)

theorem depth_readBackItems_le (vs : List Json) :
    ∀ w ∈ readBackItems vs, w.depth ≤ Json.depthItem vs := by
  match vs with
  | [] => exact List.forall_mem_nil _
  | v :: vs =>
    rw [readBackItems, Json.depthItem]
    refine List.forall_mem_cons.mpr ⟨Nat.le_trans (depth_readBack_le v) (Nat.le_max_left _ _), fun w hw => ?_⟩
    exact Nat.le_trans (depth_readBackItems_le vs w hw) (Nat.le_max_right _ _)

theorem depth_readBackMembers_le (ms : List (String × Json)) :
    ∀ m ∈ readBackMembers ms, m.2.depth ≤ Json.depthMember ms := by
  match ms with
  | [] => exact List.forall_mem_nil _
  | (name, v) :: ms =>
    rw [readBackMembers, Json.depthMember]
    refine List.forall_mem_cons.mpr ⟨Nat.le_trans (depth_readBack_le v) (Nat.le_max_left _ _), fun m hm => ?_⟩
    exact Nat.le_trans (depth_readBackMembers_le ms m hm) (Nat.le_max_right _ _)

end

/-- What is read back can be held by JSON text. -/
theorem representable_readBack {v : Json} (h : v.Representable) : (readBack v).Representable where
  distinctNames := distinctNames_readBack v
  shortIntegers := everywhere_readBack (fun _ => trivial) (fun _ => trivial) (fun _ => trivial) h.shortIntegers
  depth_le := Nat.le_trans (depth_readBack_le v) h.depth_le

/-- Doubles are read back as they are. -/
theorem finiteDoubles_readBack {v : Json} (h : v.FiniteDoubles) : (readBack v).FiniteDoubles :=
  everywhere_readBack (fun _ => trivial) (fun _ => trivial) (fun _ => trivial) h

/-! ## The same document -/

/-- A list is mapped to itself exactly if each of its elements is. -/
theorem map_eq_self_iff {α : Type} {f : α → α} {l : List α} : l.map f = l ↔ ∀ x ∈ l, f x = x := by
  conv => lhs; rhs; rw [← List.map_id l]
  exact List.map_inj_left

/-- A text is read back as it is exactly if its style keeps it. -/
theorem readBackText_eq_self_iff {asKey : Bool} {s : String} :
    readBackText asKey s = s ↔ Style.Keeps asKey s.toList := by
  rw [readBackText, ← Style.readBack_eq_self_iff, ← String.toList_inj, String.toList_ofList]

/-- Members of distinct names are read back as they are exactly if all names and values are. -/
theorem ofPairs_readBackMembers_iff {ms : List (String × Json)} (hnames : (ms.map Prod.fst).Nodup) :
    Json.ofPairs (readBackMembers ms) = ms ↔ ∀ m ∈ ms, readBackName m.1 = m.1 ∧ readBack m.2 = m.2 := by
  have heach : readBackMembers ms = ms ↔ ∀ m ∈ ms, readBackName m.1 = m.1 ∧ readBack m.2 = m.2 := by
    rw [readBackMembers_eq_map, map_eq_self_iff]
    exact forall₂_congr fun m _ => Prod.ext_iff
  rw [← heach]
  constructor
  · intro hsame
    have hlength : (Json.ofPairs (readBackMembers ms)).length = (readBackMembers ms).length := by
      rw [hsame, readBackMembers_eq_map, List.length_map]
    -- no member was lost, so there are no names that are read alike
    rw [Json.ofPairs_of_nodup (Json.nodup_of_length_ofPairs hlength)] at hsame
    exact hsame
  · intro hsame
    rw [hsame]
    exact Json.ofPairs_of_nodup hnames

/-- All texts of a document are kept exactly if its names fit and it is read back as it is. -/
theorem textsKept_iff {v : Json} (hv : v.DistinctNames) :
    TextsKept v ↔ NamesFit v ∧ readBack v = v := by
  induction hv with
  | @scalar v hscalar _ =>
    cases v with
    | arr _ | obj _ => cases hscalar
    | str s =>
      rw [readBack, Json.str.injEq, readBackText_eq_self_iff]
      exact ⟨fun h => ⟨.scalar rfl trivial, h.self⟩, fun h => .scalar rfl h.2⟩
    | _ => exact iff_of_true (.scalar rfl trivial) ⟨.scalar rfl trivial, rfl⟩
  | @arr vs _ _ ih =>
    have hkept : TextsKept (.arr vs) ↔ ∀ v ∈ vs, TextsKept v :=
      ⟨Json.Everywhere.items, fun h => .arr trivial h⟩
    rw [hkept, namesFit_arr_iff, readBack, Json.arr.injEq, readBackItems_eq_map, map_eq_self_iff,
      ← forall₂_and]
    exact forall₂_congr ih
  | @obj ms hnames _ ih =>
    have hkept : TextsKept (.obj ms) ↔ ∀ m ∈ ms, KeepsName m.1.toList ∧ TextsKept m.2 :=
      ⟨fun h m hm => ⟨h.self m hm, h.members m hm⟩,
        fun h => .obj (fun m hm => (h m hm).1) fun m hm => (h m hm).2⟩
    rw [hkept, namesFit_obj_iff, readBack, Json.obj.injEq, ofPairs_readBackMembers_iff hnames, ← forall₂_and]
    refine forall₂_congr fun m hm => ?_
    rw [ih m hm, KeepsName, readBackName, readBackText_eq_self_iff]
    exact and_and_and_comm

end DocDesk.Yaml
