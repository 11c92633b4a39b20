import DocDesk.Proofs.Json.Representable
import DocDesk.Proofs.Yaml.Numeral
import DocDesk.Yaml.Reader
import Mathlib.Data.List.Forall2

/-!
# Values of JSON documents

A JSON document as a YAML value, and the nodes that have it for their value.  What a node stands for
does not depend on the places in the text, as long as no merge key and no default value is among its
keys.

Main statements: `toJson_ofJson`, `Means.sequence` and `Means.mapping`.
-/

namespace DocDesk.Yaml

namespace Value

/-! ## Documents as values -/

mutual

/-- A JSON document as a value. -/
def ofJson : Json → Value
  | .null => .null
  | .bool b => .bool b
  | .int i => .int i
  | .float x => .float x
  | .str s => .str s.toList
  | .arr vs => .list (ofItems vs)
  | .obj ms => .map (ofMembers ms)

/-- Items as values. -/
def ofItems : List Json → List Value
  | [] => []
  | v :: vs => ofJson v :: ofItems vs

/-- Members as pairs of values. -/
def ofMembers : List (String × Json) → List (Value × Value)
  | [] => []
  | (name, v) :: ms => (.str name.toList, ofJson v) :: ofMembers ms

end

mutual

/-- A document is the document of its value. -/
theorem toJson_ofJson (v : Json) (hv : v.ShortIntegers) : (ofJson v).toJson = .ok v := by
  match v with
  | .null => rfl
  | .bool b => rfl
  | .int i =>
    have hshort : ¬ digitLimit < (natText i.natAbs).length := Nat.not_lt.mpr hv.self
    rw [ofJson, toJson, intText?, if_neg hshort]
  | .float x => rfl
  | .str s => rw [ofJson, toJson, String.ofList_toList]
  | .arr vs =>
    rw [ofJson, toJson, itemsToJson_ofItems vs hv.items]
    rfl
  | .obj ms =>
    rw [ofJson, toJson, membersToJson_ofMembers ms hv.members]
    rfl

theorem itemsToJson_ofItems (vs : List Json) (hvs : ∀ v ∈ vs, Json.ShortIntegers v) :
    itemsToJson (ofItems vs) = .ok vs := by
  match vs with
  | [] => rfl
  | v :: vs =>
    obtain ⟨hv, hvs⟩ := List.forall_mem_cons.mp hvs
    rw [ofItems, itemsToJson, toJson_ofJson v hv, itemsToJson_ofItems vs hvs]
    rfl

theorem membersToJson_ofMembers (ms : List (String × Json)) (hms : ∀ m ∈ ms, Json.ShortIntegers m.2) :
    membersToJson (ofMembers ms) = .ok ms := by
  match ms with
  | [] => rfl
  | (name, v) :: ms =>
    obtain ⟨hv, hms⟩ := List.forall_mem_cons.mp hms
    have hname : Value.name (.str name.toList) = .ok name := by
      rw [Value.name, String.ofList_toList]
    rw [ofMembers, membersToJson, hname, toJson_ofJson v hv, membersToJson_ofMembers ms hms]
    rfl

end

/-! ## Storing members -/

/-- A name is stored where a value is stored under it. -/
theorem store_ofMembers (ms : List (String × Json)) (name : String) (v : Json) :
    store (ofMembers ms) (.str name.toList) (ofJson v) = ofMembers (Json.put ms name v) := by
  induction ms with
  | nil => rfl
  | cons m ms ih =>
    obtain ⟨k, w⟩ := m
    have hsame : sameKey (.str k.toList) (.str name.toList) = decide (k = name) :=
      decide_eq_decide.mpr String.toList_inj
    rw [ofMembers, store, Json.put, hsame]
    by_cases hname : k = name
    · rw [if_pos (decide_eq_true hname), if_pos hname, hname, ofMembers]
    · rw [if_neg (by simpa using hname), if_neg hname, ofMembers, ih]

/-- Of members whose names are alike one is stored, as in an object. -/
theorem ofPairs_ofMembers (ms : List (String × Json)) :
    ofPairs (ofMembers ms) = ofMembers (Json.ofPairs ms) := by
  have hstored : ∀ stored, (ofMembers ms).foldl (fun acc p => store acc p.1 p.2) (ofMembers stored) =
      ofMembers (Json.putAll stored ms) := by
    induction ms with
    | nil => exact fun _ => rfl
    | cons m ms ih =>
      intro stored
      rw [ofMembers, List.foldl_cons, store_ofMembers, ih]
      rfl
  exact hstored []

end Value

/-! ## Tags -/

/-- Tags are the same if their names are. -/
theorem Tag.core_inj {a b : String} : Tag.core a = Tag.core b ↔ a = b := by
  rw [core, core, ← String.toList_inj, String.toList_append, String.toList_append, List.append_cancel_left_eq,
    String.toList_inj]

namespace Node

/-! ## Nodes with the value of a document -/

/-- The node stands for a JSON document. -/
structure Means (n : Node) (v : Json) : Prop where
  result : n.valuate.result = .ok (Value.ofJson v)

/-- The node is the name of a member. -/
def Names (n : Node) (name : String) : Prop := ∃ m, n = .scalar (Tag.core "str") name.toList m

/-- A scalar means what its text makes. -/
theorem Means.scalar {tag : String} {text : List Char} {v : Json} {m : Mark}
    (make : List Char → Except LevelFault Value) (htag : ofScalar? tag .scalar m = some make)
    (hmake : make text = .ok (Value.ofJson v)) : (Node.scalar tag text m).Means v := by
  constructor
  rw [valuate]
  dsimp only [Valued.result]
  rw [Node.result, htag]
  exact hmake

/-- A name is a text. -/
theorem Names.means {n : Node} {name : String} (h : Names n name) : n.Means (.str name) := by
  obtain ⟨m, rfl⟩ := h
  exact .scalar (fun cs => .ok (.str cs)) (by simp [ofScalar?, Tag.core_inj]) rfl

/-- The word for null means null. -/
theorem means_null {m : Mark} : (Node.scalar (Tag.core "null") "null".toList m).Means .null :=
  .scalar (fun _ => .ok .null) (by simp [ofScalar?]) rfl

/-- The words for booleans mean them. -/
theorem means_bool (b : Bool) {m : Mark} :
    (Node.scalar (Tag.core "bool") (if b then "true".toList else "false".toList) m).Means (.bool b) := by
  refine .scalar (fun cs => valued (toBool cs)) (by simp [ofScalar?, Tag.core_inj]) ?_
  cases b <;> rfl

/-- The text of an integer means it. -/
theorem means_int {i : Int} (hi : (natText i.natAbs).length ≤ digitLimit) {m : Mark} :
    (Node.scalar (Tag.core "int") (intText i) m).Means (.int i) := by
  refine .scalar (fun cs => valued ((Numeral.toInt cs).map .int))
    (by simp [ofScalar?, Tag.core_inj]) ?_
  rw [toInt_intText hi]
  rfl

/-- The text of a finite double means it. -/
theorem means_float {x : Binary64} (hx : x.isFinite = true) {m : Mark} :
    (Node.scalar (Tag.core "float") (Writer.floatText x) m).Means (.float x) := by
  refine .scalar (fun cs => valued ((Numeral.toReal cs).map .float))
    (by simp [ofScalar?, Tag.core_inj]) ?_
  rw [toReal_floatText hx]
  rfl

/-! ## Collections -/

/-- Items are valued one by one. -/
theorem valuateItems_eq_map (ns : List Node) : valuateItems ns = ns.map valuate := by
  induction ns with
  | nil => rfl
  | cons n ns ih => rw [valuateItems, ih, List.map_cons]

/-- Entries are valued one by one. -/
theorem valuateEntries_eq_map (es : List (Node × Node)) :
    valuateEntries es = es.map fun e => (e.1.valuate, e.2.valuate) := by
  induction es with
  | nil => rfl
  | cons e es ih => rw [valuateEntries, ih, List.map_cons]

section Items

variable {ns : List Node} {vs : List Json}

/-- Nodes that mean something have no fault. -/
theorem firstFault_items (h : List.Forall₂ Means ns vs) : firstFault (ns.map valuate) = none := by
  induction h with
  | nil => rfl
  | cons hn _ ih =>
    rw [firstFault] at ih
    rw [List.map_cons, firstFault, List.foldr_cons, ih, Valued.fault?, hn.result]
    rfl

/-- Their values are those of what they mean. -/
theorem map_value_items (h : List.Forall₂ Means ns vs) :
    (ns.map valuate).map Valued.value = Value.ofItems vs := by
  induction h with
  | nil => rfl
  | cons hn _ ih =>
    rw [List.map_cons, List.map_cons, ih, Valued.value, hn.result]
    rfl

/-- A sequence of nodes that stand for items stands for their array. -/
theorem Means.sequence (h : List.Forall₂ Means ns vs) {m : Mark} :
    (Node.sequence (Tag.core "seq") ns m).Means (.arr vs) := by
  constructor
  have hlist : listResult .sequence m (ns.map valuate) = .ok (.list (Value.ofItems vs)) := by
    rw [listResult, if_neg (not_not_intro rfl), firstFault_items h, map_value_items h]
    rfl
  have hscalar : ofScalar? (Tag.core "seq") .sequence m = none := by
    simp [ofScalar?, Tag.core_inj]
  rw [valuate, valuateItems_eq_map]
  dsimp only [Valued.result]
  rw [Node.result, hscalar]
  exact hlist

end Items

section Members

/-- An entry stands for a member. -/
def Holds (e : Node × Node) (m : String × Json) : Prop := Names e.1 m.1 ∧ Means e.2 m.2

variable {es : List (Node × Node)} {ms : List (String × Json)}

/-- Keys that are names bring in no members of other mappings. -/
theorem withMerges_of_holds (h : List.Forall₂ Holds es ms) (start : Mark) :
    withMerges start (valuateEntries es) = .ok (valuateEntries es) := by
  -- every key is tagged as a text: none is the sign of a merge, and none stands for a value
  have htag : ∀ m ∈ valuateEntries es, m.1.tag = Tag.core "str" := by
    rw [valuateEntries_eq_map]
    induction h with
    | nil => exact nofun
    | cons he _ ih =>
      obtain ⟨place, hkey⟩ := he.1
      refine List.forall_mem_cons.mpr ⟨?_, ih⟩
      dsimp only
      rw [hkey]
      rfl
  have hmerge : ∀ m ∈ valuateEntries es, decide (m.1.tag = Tag.core "merge") = false := fun m hm => by
    rw [htag m hm]
    exact decide_eq_false (by simp [Tag.core_inj])
  have hplain : ∀ m ∈ valuateEntries es, (plainKey m.1, m.2) = m := fun m hm => by
    have hne : ¬ m.1.tag = Tag.core "value" := by
      rw [htag m hm, Tag.core_inj]
      decide
    rw [plainKey.eq_def, if_neg hne]
  have hnone : (valuateEntries es).filter (fun m => decide (m.1.tag = Tag.core "merge")) = [] := by
    rw [List.filter_eq_nil_iff]
    intro m hm
    rw [hmerge m hm]
    decide
  have hall : (valuateEntries es).filter (fun m => !decide (m.1.tag = Tag.core "merge")) =
      valuateEntries es := by
    rw [List.filter_eq_self]
    intro m hm
    rw [hmerge m hm]
    rfl
  rw [withMerges]
  dsimp only
  rw [hnone, hall, List.map_congr_left hplain]
  simp only [List.mapM_nil, List.map_id']
  rfl

/-- Entries that hold members have no fault. -/
theorem memberFault_of_holds (h : List.Forall₂ Holds es ms) (start : Mark) :
    memberFault start (valuateEntries es) = none := by
  rw [valuateEntries_eq_map]
  induction h with
  | nil => rfl
  | cons he _ ih =>
    have hkey := he.1.means.result
    rw [memberFault] at ih
    rw [List.map_cons, memberFault, List.foldr_cons, ih, notKey, Valued.fault?, Valued.fault?, hkey,
      he.2.result]
    rfl

/-- Their values are those of the members. -/
theorem map_value_entries (h : List.Forall₂ Holds es ms) :
    ((valuateEntries es).map fun m => (m.1.value, m.2.value)) = Value.ofMembers ms := by
  rw [valuateEntries_eq_map]
  induction h with
  | nil => rfl
  | cons he _ ih =>
    have hkey := he.1.means.result
    rw [List.map_cons, List.map_cons, ih, Valued.value, Valued.value, hkey, he.2.result]
    rfl

/-- A mapping of entries that stand for members stands for their object. -/
theorem Means.mapping (h : List.Forall₂ Holds es ms) {m : Mark} :
    (Node.mapping (Tag.core "map") es m).Means (.obj (Json.ofPairs ms)) := by
  constructor
  have hmap : mapResult .mapping m (.ok (valuateEntries es)) .map =
      .ok (.map (Value.ofMembers (Json.ofPairs ms))) := by
    rw [mapResult, if_neg (not_not_intro rfl), memberValues, map_value_entries h,
      Value.ofPairs_ofMembers, memberFault_of_holds h]
    rfl
  have hscalar : ofScalar? (Tag.core "map") .mapping m = none := by
    simp [ofScalar?, Tag.core_inj]
  rw [valuate, withMerges_of_holds h]
  dsimp only [Valued.result]
  rw [Node.result, hscalar, if_neg (by simp [Tag.core_inj]), if_pos rfl]
  exact hmap

end Members

end Node

end DocDesk.Yaml
