import DocDesk.Proofs.Json.Everywhere
import DocDesk.Proofs.Number.Digits
import DocDesk.Proofs.Table.Key
import DocDesk.Table.Row
import Mathlib.Data.List.Pairwise

/-!
# Flattening and the leaves of a document

The leaves of a document are its positions without anything below them.  Flattening lists them in
document order under their keys (`leaves_eq_map`), and since a later key replaces an equal one before
it, it loses a leaf exactly if two leaves have one key.  The keys tell the leaves apart but for empty
names at the front.

Main statement: `flatten_lossless_iff`.
-/

namespace DocDesk.Table

/-! ## Positions -/

/-- A step into a document. -/
inductive Step where
  | name (s : String)
  | index (i : Nat)
deriving DecidableEq

/-- A step as it stands in a key. -/
def Step.text : Step → List Char
  | .name s => s.toList
  | .index i => natText i

/-- A position of a document: the steps from the root, and the value they lead to. -/
structure Position where
  steps : List Step
  value : Json

/-- A position seen from one step further up. -/
def Position.under (s : Step) (p : Position) : Position := ⟨s :: p.steps, p.value⟩

mutual

/-- All positions of a document, in document order. -/
def positions : Json → List Position
  | .arr items => ⟨[], .arr items⟩ :: itemPositions 0 items
  | .obj members => ⟨[], .obj members⟩ :: memberPositions members
  | v => [⟨[], v⟩]

/-- The positions of items, the first of which has index `i`. -/
def itemPositions (i : Nat) : List Json → List Position
  | [] => []
  | v :: vs => (positions v).map (Position.under (.index i)) ++ itemPositions (i + 1) vs

/-- The positions of members. -/
def memberPositions : List (String × Json) → List Position
  | [] => []
  | (k, v) :: ms => (positions v).map (Position.under (.name k)) ++ memberPositions ms

end

/-- A position of a scalar or an empty container. -/
def Position.isLeaf (p : Position) : Bool := p.value.isScalar || p.value.isEmptyContainer

/-- The leaves of a document, in document order. -/
def leafPositions (v : Json) : List Position := (positions v).filter Position.isLeaf

/-- The texts of the steps to a position. -/
def Position.texts (p : Position) : List (List Char) := p.steps.map Step.text

/-- The key of a position. -/
def Position.key (p : Position) : List Char := keyFrom ['.'] [] p.texts

/-- Any two leaves still have different steps when the empty names at the front are left out. -/
def LeavesApart (v : Json) : Prop :=
  ∀ p ∈ leafPositions v, ∀ q ∈ leafPositions v, p.steps ≠ q.steps → named p.texts ≠ named q.texts

instance (v : Json) : Decidable (LeavesApart v) :=
  inferInstanceAs (Decidable (∀ p ∈ leafPositions v, ∀ q ∈ leafPositions v, _))

/-! ## Positions are different -/

/-- The way to a place in an item starts with its index. -/
theorem texts_of_mem_itemPositions {i : Nat} {vs : List Json} {p : Position}
    (h : p ∈ itemPositions i vs) : ∃ j rest, i ≤ j ∧ p.texts = natText j :: rest := by
  induction vs generalizing i with
  | nil => cases h
  | cons v vs ih =>
    rcases List.mem_append.mp h with h | h
    · obtain ⟨q, -, rfl⟩ := List.mem_map.mp h
      exact ⟨i, q.texts, Nat.le_refl i, rfl⟩
    · obtain ⟨j, rest, hj, htexts⟩ := ih h
      exact ⟨j, rest, by omega, htexts⟩

/-- The way to a place in a member starts with its name. -/
theorem texts_of_mem_memberPositions {ms : List (String × Json)} {p : Position}
    (h : p ∈ memberPositions ms) :
    ∃ k rest, k ∈ ms.map Prod.fst ∧ p.texts = k.toList :: rest := by
  induction ms with
  | nil => cases h
  | cons m ms ih =>
    rcases List.mem_append.mp h with h | h
    · obtain ⟨q, -, rfl⟩ := List.mem_map.mp h
      exact ⟨m.1, q.texts, List.mem_cons_self, rfl⟩
    · obtain ⟨k, rest, hk, htexts⟩ := ih h
      exact ⟨k, rest, List.mem_cons_of_mem _ hk, htexts⟩

/-- Ways that differ do so with a step in front. -/
theorem pairwise_under {ps : List Position} (s : Step)
    (h : ps.Pairwise fun p q => p.texts ≠ q.texts) :
    (ps.map (Position.under s)).Pairwise fun p q => p.texts ≠ q.texts :=
  List.pairwise_map.mpr (h.imp fun hne he => hne (List.cons.inj he).2)

mutual

/-- In a document with distinct names the steps to two positions differ, as texts already. -/
theorem positions_pairwise {v : Json} (h : Json.DistinctNames v) :
    (positions v).Pairwise fun p q => p.texts ≠ q.texts := by
  match v with
  | .arr items =>
    refine List.pairwise_cons.mpr ⟨fun p hp => ?_, itemPositions_pairwise h.items⟩
    obtain ⟨j, rest, -, htexts⟩ := texts_of_mem_itemPositions hp
    rw [htexts]
    exact (List.cons_ne_nil _ _).symm
  | .obj members =>
    refine List.pairwise_cons.mpr ⟨fun p hp => ?_, memberPositions_pairwise h.nodup h.members⟩
    obtain ⟨k, rest, -, htexts⟩ := texts_of_mem_memberPositions hp
    rw [htexts]
    exact (List.cons_ne_nil _ _).symm
  | .null | .bool _ | .int _ | .float _ | .str _ => exact List.pairwise_singleton ..

theorem itemPositions_pairwise {i : Nat} {vs : List Json} (h : ∀ v ∈ vs, Json.DistinctNames v) :
    (itemPositions i vs).Pairwise fun p q => p.texts ≠ q.texts := by
  match vs with
  | [] => exact .nil
  | v :: vs =>
    have hhere := pairwise_under (.index i) (positions_pairwise (h v List.mem_cons_self))
    have hmore := itemPositions_pairwise (i := i + 1) fun w hw => h w (List.mem_cons_of_mem _ hw)
    refine List.pairwise_append.mpr ⟨hhere, hmore, fun p hp q hq he => ?_⟩
    obtain ⟨p, -, rfl⟩ := List.mem_map.mp hp
    obtain ⟨j, rest, hj, htexts⟩ := texts_of_mem_itemPositions hq
    rw [htexts] at he
    have hindex : i = j := natText_inj (List.cons.inj he).1
    omega

theorem memberPositions_pairwise {ms : List (String × Json)} (hnodup : (ms.map Prod.fst).Nodup)
    (h : ∀ m ∈ ms, Json.DistinctNames m.2) :
    (memberPositions ms).Pairwise fun p q => p.texts ≠ q.texts := by
  match ms with
  | [] => exact .nil
  | (k, v) :: ms =>
    obtain ⟨hfresh, hrest⟩ := List.nodup_cons.mp hnodup
    have hhere := pairwise_under (.name k) (positions_pairwise (h (k, v) List.mem_cons_self))
    have hmore := memberPositions_pairwise hrest fun m hm => h m (List.mem_cons_of_mem _ hm)
    refine List.pairwise_append.mpr ⟨hhere, hmore, fun p hp q hq he => ?_⟩
    obtain ⟨p, -, rfl⟩ := List.mem_map.mp hp
    obtain ⟨k', rest, hk, htexts⟩ := texts_of_mem_memberPositions hq
    rw [htexts] at he
    have hname : k = k' := String.toList_inj.mp (List.cons.inj he).1
    exact hfresh (hname ▸ hk)

end

/-- No two leaves of a document are reached on the same way. -/
theorem leafPositions_pairwise {v : Json} (hnames : Json.DistinctNames v) :
    (leafPositions v).Pairwise fun p q => p.texts ≠ q.texts :=
  (positions_pairwise hnames).filter _

/-- Different steps to leaves are different texts. -/
theorem texts_ne_of_steps_ne {v : Json} (hnames : Json.DistinctNames v) {p q : Position}
    (hp : p ∈ leafPositions v) (hq : q ∈ leafPositions v) (hne : p.steps ≠ q.steps) :
    p.texts ≠ q.texts := by
  have htexts : (leafPositions v).Pairwise fun p q => p.steps ≠ q.steps → p.texts ≠ q.texts := by
    refine (leafPositions_pairwise hnames).imp ?_
    intro p q h _
    exact h
  have hsymm : Std.Symm fun p q : Position => p.steps ≠ q.steps → p.texts ≠ q.texts :=
    ⟨fun p q hpq hne he => hpq hne.symm he.symm⟩
  exact htexts.forall_of_forall (fun p _ hne => absurd rfl hne) hp hq hne

/-! ## Leaves under keys -/

/-- A position with its key below a parent key. -/
def Position.keyed (sep parent : List Char) (p : Position) : List Char × Json :=
  (keyFrom sep parent p.texts, p.value)

/-- A step in front does not change which places are leaves. -/
theorem filter_isLeaf_under (s : Step) (ps : List Position) :
    (ps.map (Position.under s)).filter Position.isLeaf
      = (ps.filter Position.isLeaf).map (Position.under s) := by
  rw [List.filter_map]
  rfl

/-- A step in front joins its text to the key. -/
theorem map_keyed_under (sep parent : List Char) (s : Step) (ps : List Position) :
    ((ps.map (Position.under s)).filter Position.isLeaf).map (Position.keyed sep parent)
      = (ps.filter Position.isLeaf).map (Position.keyed sep (joinKey parent s.text sep)) := by
  rw [filter_isLeaf_under, List.map_map]
  rfl

mutual

/-- Under a key a value leaves its leaves with their keys. -/
theorem leavesUnder_eq_map (sep key : List Char) (v : Json) :
    leavesUnder sep key v = (leafPositions v).map (Position.keyed sep key) := by
  match v with
  | .arr [] | .obj [] => rfl
  | .arr (w :: ws) => exact itemLeaves_eq_map sep key 0 (w :: ws)
  | .obj (m :: ms) => exact memberLeaves_eq_map sep key (m :: ms)
  | .null | .bool _ | .int _ | .float _ | .str _ => rfl

theorem itemLeaves_eq_map (sep parent : List Char) (i : Nat) (vs : List Json) :
    itemLeaves sep parent i vs
      = ((itemPositions i vs).filter Position.isLeaf).map (Position.keyed sep parent) := by
  match vs with
  | [] => rfl
  | v :: vs =>
    rw [itemLeaves, itemPositions, List.filter_append, List.map_append, map_keyed_under,
      ← itemLeaves_eq_map sep parent (i + 1) vs, leavesUnder_eq_map]
    rfl

theorem memberLeaves_eq_map (sep parent : List Char) (ms : List (String × Json)) :
    memberLeaves sep parent ms
      = ((memberPositions ms).filter Position.isLeaf).map (Position.keyed sep parent) := by
  match ms with
  | [] => rfl
  | (k, v) :: ms =>
    rw [memberLeaves, memberPositions, List.filter_append, List.map_append, map_keyed_under,
      ← memberLeaves_eq_map sep parent ms, leavesUnder_eq_map]
    rfl

end

/-- A container with content leaves its leaves with their keys. -/
theorem leaves_eq_map {v : Json} (hscalar : v.isScalar = false) (hempty : v.isEmptyContainer = false)
    (sep : List Char) : leaves v [] sep = (leafPositions v).map (Position.keyed sep []) := by
  match v with
  | .arr [] | .obj [] => cases hempty
  | .arr (w :: ws) => exact itemLeaves_eq_map sep [] 0 (w :: ws)
  | .obj (m :: ms) => exact memberLeaves_eq_map sep [] (m :: ms)
  | .null | .bool _ | .int _ | .float _ | .str _ => cases hscalar

/-! ## What is lost -/

/-- A position as an entry. -/
def Position.entry (p : Position) : String × Json := (String.ofList p.key, p.value)

/-- Flattening stores every leaf under its key. -/
theorem flatten_eq_ofPairs {v : Json} (hscalar : v.isScalar = false)
    (hempty : v.isEmptyContainer = false) :
    flatten v = Json.ofPairs ((leafPositions v).map Position.entry) := by
  have hleaves := leaves_eq_map hscalar hempty ['.']
  rw [flatten]
  exact congrArg Json.ofPairs ((congrArg _ hleaves).trans (List.map_map ..))

/-- Two places have one key exactly if their steps are the same but for empty names in front. -/
theorem key_eq_iff {p q : Position} : p.key = q.key ↔ named p.texts = named q.texts := keyFrom_inj

/-- The keys of all leaves are distinct exactly if the leaves are apart. -/
theorem nodup_keys_iff {v : Json} (hnames : Json.DistinctNames v) :
    (((leafPositions v).map Position.entry).map Prod.fst).Nodup ↔ LeavesApart v := by
  rw [List.map_map, List.Nodup, List.pairwise_map]
  constructor
  · intro h p hp q hq
    have hkeys : (leafPositions v).Pairwise fun p q =>
        p.steps ≠ q.steps → named p.texts ≠ named q.texts := by
      refine h.imp fun {p q} hne _ hnamed => ?_
      exact hne (congrArg String.ofList (key_eq_iff.mpr hnamed))
    have hsymm : Std.Symm fun p q : Position =>
        p.steps ≠ q.steps → named p.texts ≠ named q.texts :=
      ⟨fun p q hpq hne he => hpq hne.symm he.symm⟩
    exact hkeys.forall_of_forall (fun p _ hne => absurd rfl hne) hp hq
  · intro h
    refine (leafPositions_pairwise hnames).imp_of_mem fun {p q} hp hq hne he => ?_
    have hsteps : p.steps ≠ q.steps := fun hsteps => hne (congrArg (List.map Step.text) hsteps)
    exact h p hp q hq hsteps (key_eq_iff.mp (String.ofList_injective he))

/-- A position of a document with a first step that is no empty text is told apart by all its
steps. -/
theorem named_eq_self {step : List Char} (hne : step ≠ []) (rest : List (List Char)) :
    named (step :: rest) = step :: rest := by
  rw [named, List.dropWhile_cons_of_neg (by simpa using hne)]

/-- In an array, and in an object without a member of the empty name, the leaves are apart. -/
theorem leavesApart_of_named {v : Json} (hnames : Json.DistinctNames v)
    (h : ∀ members, v = .obj members → "" ∉ members.map Prod.fst) : LeavesApart v := by
  have hall : ∀ p ∈ leafPositions v, named p.texts = p.texts := by
    intro p hp
    have hmem := (List.mem_filter.mp hp).1
    match v with
    | .arr items =>
      rcases List.mem_cons.mp hmem with rfl | hmem
      · rfl
      · obtain ⟨j, rest, -, htexts⟩ := texts_of_mem_itemPositions hmem
        rw [htexts, named_eq_self (natText_ne_nil j)]
    | .obj members =>
      rcases List.mem_cons.mp hmem with rfl | hmem
      · rfl
      · obtain ⟨k, rest, hk, htexts⟩ := texts_of_mem_memberPositions hmem
        have hne : k.toList ≠ [] := by
          intro hnil
          rw [String.toList_eq_nil_iff] at hnil
          exact h members rfl (hnil ▸ hk)
        rw [htexts, named_eq_self hne]
    | .null | .bool _ | .int _ | .float _ | .str _ =>
      rw [List.mem_singleton.mp hmem]
      rfl
  intro p hp q hq hne
  rw [hall p hp, hall q hq]
  exact texts_ne_of_steps_ne hnames hp hq hne

/-- Flattening a container with content keeps every leaf under a key of its own, in document order,
and the one row of the flat table has a cell for each, if the leaves are apart; if they are not, it has
fewer entries than the document has leaves. -/
theorem flatten_lossless_iff {v : Json} (hscalar : v.isScalar = false)
    (hempty : v.isEmptyContainer = false) (hnames : Json.DistinctNames v) :
    (LeavesApart v →
      flatten v = (leafPositions v).map Position.entry ∧
      (∀ p ∈ leafPositions v, ∀ q ∈ leafPositions v, p.steps ≠ q.steps → p.key ≠ q.key) ∧
      rows v true = [(leafPositions v).map fun p => (String.ofList p.key, renderCell p.value)]) ∧
    (¬ LeavesApart v → (flatten v).length < (leafPositions v).length) := by
  have hflatten := flatten_eq_ofPairs hscalar hempty
  constructor
  · intro hapart
    rw [Json.ofPairs_of_nodup ((nodup_keys_iff hnames).mpr hapart)] at hflatten
    refine ⟨hflatten, fun p hp q hq hne he => hapart p hp q hq hne (key_eq_iff.mp he), ?_⟩
    have hrow : rows v true = [row (.obj (flatten v))] := rfl
    rw [hrow, hflatten]
    exact congrArg (fun r => [r]) (List.map_map ..)
  · intro hapart
    rw [hflatten]
    have hle := Json.length_ofPairs_le ((leafPositions v).map Position.entry)
    rw [List.length_map] at hle
    refine Nat.lt_of_le_of_ne hle fun he => hapart ((nodup_keys_iff hnames).mp ?_)
    exact Json.nodup_of_length_ofPairs (he.trans (List.length_map ..).symm)

/-- A document whose names hold dots, backslashes, digits or nothing, with an empty container. -/
def dottedDocument : Json :=
  .obj [("a.b", .obj [("", .int 1)]), ("a", .obj [("b", .null), ("\\", .arr [.arr [], .str "x"])]),
    ("", .bool true)]

/-- Names with dots and backslashes are told apart. -/
theorem flatten_lossless_dotted :
    dottedDocument.isScalar = false ∧ dottedDocument.isEmptyContainer = false ∧
      Json.DistinctNames dottedDocument ∧ LeavesApart dottedDocument ∧
      flatten dottedDocument = (leafPositions dottedDocument).map Position.entry := by
  have hnames : Json.DistinctNames dottedDocument := by decide
  have hapart : LeavesApart dottedDocument := by decide
  exact ⟨rfl, rfl, hnames, hapart, ((flatten_lossless_iff rfl rfl hnames).1 hapart).1⟩

/-- A member below an empty name, and another one beside it. -/
def hiddenDocument : Json := .obj [("", .obj [("a", .int 1)]), ("a", .int 2)]

/-- Below an empty name a leaf has the key that it would have beside it, and one of the two is lost. -/
theorem flatten_hidden :
    (leafPositions hiddenDocument).map (fun p => p.steps) = [[.name "", .name "a"], [.name "a"]] ∧
      flatten hiddenDocument = [("a", .int 2)] ∧
      rows hiddenDocument true = [[("a", .int 2)]] :=
  ⟨rfl, rfl, rfl⟩

end DocDesk.Table
