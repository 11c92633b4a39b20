import DocDesk.Proofs.Yaml.ReadBack
import DocDesk.Proofs.Yaml.Value

/-!
# Nodes of a written document

From the tokens of a written document nodes are read that stand for it, as it is read back.  None of its
nodes has an anchor or a tag, so what is read depends on the kinds of the tokens alone, and on the room that
is left for its nesting.

Main statements: `reads_node` and `exists_ofStream`.
-/

namespace DocDesk.Yaml

open Writer (isSimpleKey isPlainScalar)

/-! ## Reading by the kinds of tokens -/

/-- The kinds of the tokens left. -/
def NodeState.kinds (s : NodeState) : List Token.Kind := s.tokens.map Token.kind

namespace Node

variable {α : Type} {s : NodeState} {t : Token} {k : Token.Kind} {kinds rest : List Token.Kind}
  {position : Position} {fuel : Nat}

/-- From tokens of the kinds, with those of `rest` behind them and with room for so many collections within
each other, something with the property is read, and the tokens behind are left at the same nesting. -/
def Reads (f : NodeState → Except Fault (Step α)) (kinds rest : List Token.Kind) (room : Nat)
    (P : α → Prop) : Prop :=
  ∀ s : NodeState, s.kinds = kinds ++ rest → s.depth + room ≤ depthLimit →
    ∃ a s', f s = .ok (a, s') ∧ s'.kinds = rest ∧ s'.depth = s.depth ∧ P a

/-- More room does no harm. -/
theorem Reads.mono {f : NodeState → Except Fault (Step α)} {room room' : Nat} {P : α → Prop}
    (h : Reads f kinds rest room P) (hle : room ≤ room') : Reads f kinds rest room' P :=
  fun s hs hroom => h s hs (Nat.le_trans (Nat.add_le_add_left hle _) hroom)

/-- What is read inside a collection, where there is room for one. -/
theorem within_eq (content : NodeState → Except Fault (Step α)) {a : α} {s' : NodeState}
    (hroom : s.depth < depthLimit) (h : content s.inner = .ok (a, s')) :
    within s content = .ok (a, { s' with depth := s.depth }) := by
  rw [within, if_pos hroom, h]
  rfl

/-- The next token is of the next kind. -/
theorem exists_peek (h : s.kinds = k :: kinds) :
    ∃ t, s.peek = .ok t ∧ t.kind = k ∧ s.next.kinds = kinds := by
  obtain ⟨tokens, fault, anchors, handles⟩ := s
  obtain ⟨t, ts, rfl, hk, hts⟩ := List.map_eq_cons_iff.mp h
  exact ⟨t, rfl, hk, hts⟩

/-! ## Single nodes -/

/-- A scalar is a node. -/
theorem read_scalar {text : List Char} {plain : Bool} (hpeek : s.peek = .ok t)
    (hkind : t.kind = .scalar text plain) :
    read position (fuel + 1) s = .ok (.scalar (scalarTag none plain text) text t.start, s.next) := by
  simp [read, hpeek, hkind, properties, addProperty, fullTag, leaf, checkAnchor, NodeState.bind, bind,
    Except.bind]

/-- Items between brackets are a sequence. -/
theorem read_flowSequence (hroom : s.depth < depthLimit) (hpeek : s.peek = .ok t)
    (hkind : t.kind = .flowSequenceStart) {items : List Node} {s' : NodeState}
    (hitems : flowItems fuel t.start true s.next.inner = .ok (items, s')) :
    read position (fuel + 1) s
      = .ok (.sequence (Tag.core "seq") items t.start, { s' with depth := s.depth }) := by
  have hwithin := within_eq (fun s => flowItems fuel t.start true s.next) hroom hitems
  simp [read, hpeek, hkind, properties, addProperty, fullTag, sequenceOf, checkAnchor, NodeState.bind, bind,
    Except.bind, hwithin, collectionTag, isOpenTag]

/-- Entries between braces are a mapping. -/
theorem read_flowMapping (hroom : s.depth < depthLimit) (hpeek : s.peek = .ok t)
    (hkind : t.kind = .flowMappingStart) {entries : List (Node × Node)} {s' : NodeState}
    (hentries : flowEntries fuel t.start true s.next.inner = .ok (entries, s')) :
    read position (fuel + 1) s
      = .ok (.mapping (Tag.core "map") entries t.start, { s' with depth := s.depth }) := by
  have hwithin := within_eq (fun s => flowEntries fuel t.start true s.next) hroom hentries
  simp [read, hpeek, hkind, properties, addProperty, fullTag, mappingOf, checkAnchor, NodeState.bind, bind,
    Except.bind, hwithin, collectionTag, isOpenTag]

/-- Items of a block are a sequence. -/
theorem read_blockSequence (hposition : position ≠ .flow) (hroom : s.depth < depthLimit)
    (hpeek : s.peek = .ok t) (hkind : t.kind = .blockSequenceStart) {items : List Node} {s' : NodeState}
    (hitems : blockItems fuel t.start s.next.inner = .ok (items, s')) :
    read position (fuel + 1) s
      = .ok (.sequence (Tag.core "seq") items t.start, { s' with depth := s.depth }) := by
  have hwithin := within_eq (fun s => blockItems fuel t.start s.next) hroom hitems
  simp [read, hpeek, hkind, properties, addProperty, fullTag, sequenceOf, checkAnchor, NodeState.bind, bind,
    Except.bind, hwithin, collectionTag, isOpenTag, hposition]

/-- So are items in the block of a mapping. -/
theorem read_innerSequence (hroom : s.depth < depthLimit) (hpeek : s.peek = .ok t)
    (hkind : t.kind = .blockEntry) {items : List Node} {s' : NodeState}
    (hitems : innerItems fuel s.inner = .ok (items, s')) :
    read .blockValue (fuel + 1) s
      = .ok (.sequence (Tag.core "seq") items t.start, { s' with depth := s.depth }) := by
  have hwithin := within_eq _ hroom hitems
  simp [read, hpeek, hkind, properties, addProperty, fullTag, sequenceOf, checkAnchor, NodeState.bind, bind,
    Except.bind, hwithin, collectionTag, isOpenTag]

/-- Entries of a block are a mapping. -/
theorem read_blockMapping (hposition : position ≠ .flow) (hroom : s.depth < depthLimit)
    (hpeek : s.peek = .ok t) (hkind : t.kind = .blockMappingStart) {entries : List (Node × Node)}
    {s' : NodeState} (hentries : blockEntries fuel t.start s.next.inner = .ok (entries, s')) :
    read position (fuel + 1) s
      = .ok (.mapping (Tag.core "map") entries t.start, { s' with depth := s.depth }) := by
  have hwithin := within_eq (fun s => blockEntries fuel t.start s.next) hroom hentries
  simp [read, hpeek, hkind, properties, addProperty, fullTag, mappingOf, checkAnchor, NodeState.bind, bind,
    Except.bind, hwithin, collectionTag, isOpenTag, hposition]

/-! ## Scalars -/

/-- A scalar is read as a node that has what every such node has. -/
theorem reads_scalar {text : List Char} {plain : Bool} {P : Node → Prop}
    (h : ∀ m, P (.scalar (scalarTag none plain text) text m)) :
    Reads (read position (fuel + 1)) [.scalar text plain] rest 0 P := by
  intro s hs hroom
  obtain ⟨t, hpeek, hkind, hnext⟩ := exists_peek hs
  exact ⟨_, _, read_scalar hpeek hkind, hnext, rfl, h _⟩

/-- A text has the tag of a text, be it plain or between quotes. -/
theorem scalarTag_text (asKey : Bool) (cs : List Char) :
    scalarTag none (Style.choose asKey cs = .plain) (Style.readBack asKey cs) = Tag.core "str" := by
  by_cases hplain : Style.choose asKey cs = .plain
  · have hsame : Style.readBack asKey cs = cs := if_neg (by rw [hplain]; decide)
    rw [decide_eq_true hplain, hsame, scalarTag, if_pos rfl, (of_choose_plain hplain).1]
    rfl
  · rw [decide_eq_false hplain]
    rfl

/-- A text is read as its style leaves it. -/
theorem reads_text (position : Position) (fuel : Nat) (asKey : Bool) (name : String) :
    Reads (read position (fuel + 1)) [textKind asKey name.toList] rest 0
      (Names · (readBackText asKey name)) :=
  reads_scalar fun m => ⟨m, by rw [scalarTag_text, readBackText, String.toList_ofList]⟩

/-- A finite double is resolved as a double. -/
theorem resolve_floatText {x : Binary64} (hx : x.isFinite = true) :
    resolve (Writer.floatText x) = .float := by
  cases x with
  | nan => cases hx
  | infinite negative => cases hx
  | finite negative r =>
    obtain ⟨p, htext, hfraction, -⟩ := exists_numeral_floatText negative r
    rw [htext]
    exact resolve_of_fraction hfraction

/-! ## Empty containers -/

/-- Brackets with nothing between them are an empty array. -/
theorem reads_flowSequence :
    Reads (read position (fuel + 2)) [.flowSequenceStart, .flowSequenceEnd] rest 1
      (Means · (.arr [])) := by
  intro s hs hroom
  obtain ⟨t, hpeek, hkind, hnext⟩ := exists_peek hs
  obtain ⟨u, hpeek', hkind', hlast⟩ := exists_peek hnext
  have hinner : s.next.inner.peek = .ok u := hpeek'
  have hitems : flowItems (fuel + 1) t.start true s.next.inner = .ok ([], s.next.inner.next) := by
    simp [flowItems, NodeState.peekKind, hinner, hkind', bind, Except.bind]
  exact ⟨_, _, read_flowSequence hroom hpeek hkind hitems, hlast, rfl, .sequence .nil⟩

/-- Braces with nothing between them are an empty object. -/
theorem reads_flowMapping :
    Reads (read position (fuel + 2)) [.flowMappingStart, .flowMappingEnd] rest 1
      (Means · (.obj [])) := by
  intro s hs hroom
  obtain ⟨t, hpeek, hkind, hnext⟩ := exists_peek hs
  obtain ⟨u, hpeek', hkind', hlast⟩ := exists_peek hnext
  have hinner : s.next.inner.peek = .ok u := hpeek'
  have hentries : flowEntries (fuel + 1) t.start true s.next.inner = .ok ([], s.next.inner.next) := by
    simp [flowEntries, NodeState.peekKind, hinner, hkind', bind, Except.bind]
  exact ⟨_, _, read_flowMapping hroom hpeek hkind hentries, hlast, rfl, .mapping .nil⟩

/-! ## First tokens -/

/-- The kinds that a node may start with. -/
def opensNode : Token.Kind → Bool
  | .scalar _ _ | .flowSequenceStart | .flowMappingStart | .blockSequenceStart | .blockMappingStart => true
  | _ => false

/-- A node starts with a token that stands for no empty node, nor for the end of anything. -/
theorem exists_nodeKinds_cons (inner : Bool) (v : Json) :
    ∃ k kinds, nodeKinds inner v = k :: kinds ∧
      (opensNode k = true ∨ inner = true ∧ k = .blockEntry) := by
  match v with
  | .null | .bool _ | .int _ | .float _ | .str _ | .arr [] | .obj [] =>
    exact ⟨_, _, by rw [nodeKinds], .inl rfl⟩
  | .obj (_ :: _) => exact ⟨_, _, by rw [nodeKinds]; rfl, .inl rfl⟩
  | .arr (_ :: _) =>
    cases inner with
    | true => exact ⟨_, _, by rw [nodeKinds]; rfl, .inr ⟨rfl, rfl⟩⟩
    | false => exact ⟨_, _, by rw [nodeKinds]; rfl, .inl rfl⟩

/-- The tokens of a document start with one that opens a node. -/
theorem exists_opens (v : Json) : ∃ k kinds, nodeKinds false v = k :: kinds ∧ opensNode k = true := by
  obtain ⟨k, kinds, hkinds, hopens | ⟨hinner, -⟩⟩ := exists_nodeKinds_cons false v
  · exact ⟨k, kinds, hkinds, hopens⟩
  · cases hinner

/-- A token that opens a node ends nothing. -/
theorem not_ends_of_opens (h : opensNode k = true) :
    endsBlockItem k = false ∧ endsInnerItem k = false ∧ endsBlockValue k = false := by
  cases k with
  | scalar text plain => exact ⟨rfl, rfl, rfl⟩
  | flowSequenceStart => exact ⟨rfl, rfl, rfl⟩
  | flowMappingStart => exact ⟨rfl, rfl, rfl⟩
  | blockSequenceStart => exact ⟨rfl, rfl, rfl⟩
  | blockMappingStart => exact ⟨rfl, rfl, rfl⟩
  | _ => cases h

/-! ## Items and entries -/

section Parts

variable {v w : Json} {vs ws : List Json} {name : String} {ms ns : List (String × Json)} {opened : Mark}
  {room : Nat}

/-- The end of a block ends its items. -/
theorem reads_blockItems_nil :
    Reads (blockItems (fuel + 1) opened) [.blockEnd] rest room (List.Forall₂ Means · []) := by
  intro s hs hroom
  obtain ⟨t, hpeek, hkind, hnext⟩ := exists_peek hs
  exact ⟨[], s.next, by simp [blockItems, hpeek, hkind, bind, Except.bind], hnext, rfl, .nil⟩

/-- Behind the dash of an item its node is read, and the node's first token is no end of the item. -/
theorem exists_item
    (hitem : Reads (read .block fuel) (nodeKinds false v) rest room (Means · w))
    (hs : s.kinds = .blockEntry :: (nodeKinds false v ++ rest)) (hroom : s.depth + room ≤ depthLimit) :
    ∃ t u item s', s.peek = .ok t ∧ t.kind = .blockEntry ∧ s.next.peek = .ok u ∧
      opensNode u.kind = true ∧ read .block fuel s.next = .ok (item, s') ∧ s'.kinds = rest ∧
      s'.depth = s.depth ∧ Means item w := by
  obtain ⟨k, kinds, hkinds, hopens⟩ := exists_opens v
  obtain ⟨t, hpeek, hkind, hnext⟩ := exists_peek hs
  obtain ⟨item, s', hread, hs', hdepth, hmeans⟩ := hitem s.next hnext hroom
  rw [hkinds] at hnext
  obtain ⟨u, hpeek', rfl, -⟩ := exists_peek hnext
  exact ⟨t, u, item, s', hpeek, hkind, hpeek', hopens, hread, hs', hdepth, hmeans⟩

/-- An item is read in front of the others. -/
theorem reads_blockItems_cons
    (hitem : Reads (read .block fuel) (nodeKinds false v) (itemKinds vs ++ [.blockEnd] ++ rest) room
      (Means · w))
    (hitems : Reads (blockItems fuel opened) (itemKinds vs ++ [.blockEnd]) rest room
      (List.Forall₂ Means · ws)) :
    Reads (blockItems (fuel + 1) opened) (itemKinds (v :: vs) ++ [.blockEnd]) rest room
      (List.Forall₂ Means · (w :: ws)) := by
  intro s hs hroom
  obtain ⟨t, u, item, s₁, hpeek, hkind, hpeek', hopens, hread, hs₁, hdepth₁, hmeans⟩ :=
    exists_item hitem (hs.trans (by simp [itemKinds])) hroom
  obtain ⟨items, s₂, hreads, hs₂, hdepth₂, hall⟩ := hitems s₁ hs₁ (by rwa [hdepth₁])
  refine ⟨item :: items, s₂, ?_, hs₂, hdepth₂.trans hdepth₁, .cons hmeans hall⟩
  simp [blockItems, NodeState.peekKind, hpeek, hkind, hpeek', not_ends_of_opens hopens, hread, hreads,
    bind, Except.bind]

/-- Items in the block of a mapping end where no other entry follows. -/
theorem reads_innerItems_nil (hrest : ∃ k kinds, rest = k :: kinds ∧ k ≠ .blockEntry) :
    Reads (innerItems (fuel + 1)) [] rest room (List.Forall₂ Means · []) := by
  obtain ⟨k, kinds, rfl, hk⟩ := hrest
  intro s hs hroom
  obtain ⟨t, hpeek, hkind, -⟩ := exists_peek hs
  refine ⟨[], s, ?_, hs, rfl, .nil⟩
  rw [innerItems, hpeek]
  dsimp only [bind, Except.bind]
  split
  · next hentry => exact absurd (hkind.symm.trans hentry) hk
  · rfl

/-- Before that an item is read in front of the others. -/
theorem reads_innerItems_cons
    (hitem : Reads (read .block fuel) (nodeKinds false v) (itemKinds vs ++ rest) room (Means · w))
    (hitems : Reads (innerItems fuel) (itemKinds vs) rest room (List.Forall₂ Means · ws)) :
    Reads (innerItems (fuel + 1)) (itemKinds (v :: vs)) rest room (List.Forall₂ Means · (w :: ws)) := by
  intro s hs hroom
  obtain ⟨t, u, item, s₁, hpeek, hkind, hpeek', hopens, hread, hs₁, hdepth₁, hmeans⟩ :=
    exists_item hitem (hs.trans (by simp [itemKinds])) hroom
  obtain ⟨items, s₂, hreads, hs₂, hdepth₂, hall⟩ := hitems s₁ hs₁ (by rwa [hdepth₁])
  refine ⟨item :: items, s₂, ?_, hs₂, hdepth₂.trans hdepth₁, .cons hmeans hall⟩
  simp [innerItems, NodeState.peekKind, hpeek, hkind, hpeek', not_ends_of_opens hopens, hread, hreads,
    bind, Except.bind]

/-- The end of a block ends its entries. -/
theorem reads_blockEntries_nil :
    Reads (blockEntries (fuel + 1) opened) [.blockEnd] rest room (List.Forall₂ Holds · []) := by
  intro s hs hroom
  obtain ⟨t, hpeek, hkind, hnext⟩ := exists_peek hs
  exact ⟨[], s.next, by simp [blockEntries, hpeek, hkind, bind, Except.bind], hnext, rfl, .nil⟩

/-- A member is read in front of the others. -/
theorem reads_blockEntries_cons
    (hvalue : Reads (read .blockValue (fuel + 1)) (nodeKinds (isSimpleKey name.toList) v)
      (memberKinds ms ++ [.blockEnd] ++ rest) room (Means · w))
    (hentries : Reads (blockEntries (fuel + 1) opened) (memberKinds ms ++ [.blockEnd]) rest room
      (List.Forall₂ Holds · ns)) :
    Reads (blockEntries (fuel + 2) opened) (memberKinds ((name, v) :: ms) ++ [.blockEnd]) rest room
      (List.Forall₂ Holds · ((readBackName name, w) :: ns)) := by
  intro s hs hroom
  obtain ⟨k, kinds, hkinds, hopens⟩ := exists_nodeKinds_cons (isSimpleKey name.toList) v
  have hends : endsBlockValue k = false := by
    rcases hopens with hopens | ⟨-, rfl⟩
    · exact (not_ends_of_opens hopens).2.2
    · rfl
  simp only [memberKinds, nameKind, List.cons_append, List.append_assoc] at hs
  obtain ⟨t, hpeek, hkind, hnext⟩ := exists_peek hs
  obtain ⟨key, s₁, hkey, hs₁, hdepth₁, hnames⟩ := reads_text .blockValue fuel
    (isSimpleKey name.toList) name s.next hnext (Nat.le_trans (Nat.le_add_right _ room) hroom)
  obtain ⟨u, hpeek', hkind', -⟩ := exists_peek hnext
  obtain ⟨w, hpeek₁, hkind₁, hnext₁⟩ := exists_peek hs₁
  obtain ⟨value, s₂, hread, hs₂, hdepth₂, hmeans⟩ := hvalue s₁.next (hnext₁.trans (by simp))
    (by rwa [show s₁.next.depth = s.depth from hdepth₁])
  have hdepth : s₂.depth = s.depth := hdepth₂.trans hdepth₁
  obtain ⟨entries, s₃, hreads, hs₃, hdepth₃, hall⟩ := hentries s₂ hs₂ (by rwa [hdepth])
  rw [hkinds] at hnext₁
  obtain ⟨x, hpeek₂, hkind₂, -⟩ := exists_peek hnext₁
  have hkeyAfter : keyAfter t s.next endsBlockValue (read .blockValue (fuel + 1)) = .ok (key, s₁) := by
    simp [keyAfter, NodeState.peekKind, hpeek', hkind', textKind, endsBlockValue, hkey, bind, Except.bind]
  have hvalueAfter : valueAfter s₁ endsBlockValue (read .blockValue (fuel + 1)) = .ok (value, s₂) := by
    simp [valueAfter, NodeState.peekKind, hpeek₁, hkind₁, hpeek₂, hkind₂, hends, hread, bind, Except.bind]
  refine ⟨(key, value) :: entries, s₃, ?_, hs₃, hdepth₃.trans hdepth, .cons ⟨hnames, hmeans⟩ hall⟩
  rw [blockEntries, hpeek]
  simp [hkind, hkeyAfter, hvalueAfter, hreads, bind, Except.bind]

/-! ## Filled containers -/

/-- A block of items is an array, one level deeper. -/
theorem reads_blockSequence (hposition : position ≠ .flow)
    (hitems : ∀ opened, Reads (blockItems fuel opened) kinds rest room (List.Forall₂ Means · vs)) :
    Reads (read position (fuel + 1)) (.blockSequenceStart :: kinds) rest (room + 1)
      (Means · (.arr vs)) := by
  intro s hs hroom
  obtain ⟨t, hpeek, hkind, hnext⟩ := exists_peek hs
  have hinner : s.depth + 1 + room ≤ depthLimit := by omega
  obtain ⟨items, s', hitems, hs', -, hall⟩ := hitems t.start s.next.inner hnext hinner
  exact ⟨_, _, read_blockSequence hposition (by omega) hpeek hkind hitems, hs', rfl, .sequence hall⟩

/-- The items of a sequence under a simple key start at the column of the key. -/
theorem reads_innerSequence
    (hitems : Reads (innerItems fuel) (.blockEntry :: kinds) rest room (List.Forall₂ Means · vs)) :
    Reads (read .blockValue (fuel + 1)) (.blockEntry :: kinds) rest (room + 1) (Means · (.arr vs)) := by
  intro s hs hroom
  obtain ⟨t, hpeek, hkind, -⟩ := exists_peek hs
  have hinner : s.depth + 1 + room ≤ depthLimit := by omega
  obtain ⟨items, s', hitems, hs', -, hall⟩ := hitems s.inner hs hinner
  exact ⟨_, _, read_innerSequence (by omega) hpeek hkind hitems, hs', rfl, .sequence hall⟩

/-- A block of members is an object, one level deeper. -/
theorem reads_blockMapping (hposition : position ≠ .flow)
    (hentries : ∀ opened, Reads (blockEntries fuel opened) kinds rest room (List.Forall₂ Holds · ms)) :
    Reads (read position (fuel + 1)) (.blockMappingStart :: kinds) rest (room + 1)
      (Means · (.obj (Json.ofPairs ms))) := by
  intro s hs hroom
  obtain ⟨t, hpeek, hkind, hnext⟩ := exists_peek hs
  have hinner : s.depth + 1 + room ≤ depthLimit := by omega
  obtain ⟨entries, s', hentries, hs', -, hall⟩ := hentries t.start s.next.inner hnext hinner
  exact ⟨_, _, read_blockMapping hposition (by omega) hpeek hkind hentries, hs', rfl, .mapping hall⟩

end Parts

/-! ## Whole nodes -/

/-- The numbers of the document are within reach. -/
structure Readable (v : Json) : Prop where
  short : v.ShortIntegers
  finite : v.FiniteDoubles

/-- The items of a readable array are readable. -/
theorem Readable.items {vs : List Json} (h : Readable (.arr vs)) : ∀ v ∈ vs, Readable v := fun v hv =>
  ⟨h.short.items v hv, h.finite.items v hv⟩

/-- The members of a readable object are readable. -/
theorem Readable.members {ms : List (String × Json)} (h : Readable (.obj ms)) :
    ∀ m ∈ ms, Readable m.2 := fun m hm =>
  ⟨h.short.members m hm, h.finite.members m hm⟩

mutual

/-- From the tokens of a value a node is read that stands for it, as it is read back. -/
theorem reads_node (v : Json) (hv : Readable v) {inner : Bool} {position : Position} {fuel : Nat}
    {rest : List Token.Kind} (hposition : position ≠ .flow)
    (hinner : inner = true → position = .blockValue ∧ ∃ k kinds, rest = k :: kinds ∧ k ≠ .blockEntry)
    (hfuel : (nodeKinds inner v).length + inner.toNat < fuel) :
    Reads (read position fuel) (nodeKinds inner v) rest v.depth (Means · (readBack v)) := by
  obtain ⟨fuel, rfl⟩ := Nat.exists_eq_succ_of_ne_zero (show fuel ≠ 0 by omega)
  match v with
  | .null =>
    rw [nodeKinds]
    exact reads_scalar fun m => means_null
  | .bool b =>
    rw [nodeKinds]
    refine reads_scalar fun m => ?_
    have hresolve : resolve (if b then "true".toList else "false".toList) = .bool := by
      cases b <;> decide +kernel
    rw [scalarTag, if_pos rfl, hresolve]
    exact means_bool b
  | .int i =>
    rw [nodeKinds]
    refine reads_scalar fun m => ?_
    rw [scalarTag, if_pos rfl, resolve_intText]
    exact means_int hv.short.self
  | .float x =>
    rw [nodeKinds]
    refine reads_scalar fun m => ?_
    rw [scalarTag, if_pos rfl, resolve_floatText hv.finite.self]
    exact means_float hv.finite.self
  | .str s =>
    rw [nodeKinds]
    intro t ht hroom
    obtain ⟨n, t', hread, ht', hdepth, hnames⟩ := reads_text position fuel false s t ht hroom
    exact ⟨n, t', hread, ht', hdepth, hnames.means⟩
  | .arr [] =>
    rw [nodeKinds] at hfuel ⊢
    obtain ⟨fuel, rfl⟩ := Nat.exists_eq_succ_of_ne_zero (show fuel ≠ 0 by simp at hfuel; omega)
    exact reads_flowSequence
  | .obj [] =>
    rw [nodeKinds] at hfuel ⊢
    obtain ⟨fuel, rfl⟩ := Nat.exists_eq_succ_of_ne_zero (show fuel ≠ 0 by simp at hfuel; omega)
    exact reads_flowMapping
  -- a sequence under a name in its own column is written without a start and an end of its own
  | .arr (w :: ws) =>
    have hlength : (itemKinds (w :: ws)).length < fuel := by
      rw [nodeKinds] at hfuel
      simp only [itemKinds, List.length_append, List.length_cons] at hfuel ⊢
      cases inner <;> simp at hfuel <;> omega
    cases inner with
    | true =>
      obtain ⟨rfl, hrest⟩ := hinner rfl
      have hitems := reads_innerItems (w :: ws) hv.items hrest hlength
      rw [itemKinds, List.cons_append] at hitems
      rw [nodeKinds]
      exact reads_innerSequence hitems
    | false =>
      have hkinds : nodeKinds false (.arr (w :: ws)) =
          .blockSequenceStart :: (itemKinds (w :: ws) ++ [.blockEnd]) := by
        rw [nodeKinds, itemKinds]
        rfl
      rw [hkinds]
      exact reads_blockSequence hposition fun opened => reads_blockItems (w :: ws) hv.items opened hlength
  | .obj (m :: ms) =>
    have hkinds : nodeKinds inner (.obj (m :: ms)) =
        .blockMappingStart :: (memberKinds (m :: ms) ++ [.blockEnd]) := by
      rw [nodeKinds, memberKinds]
      rfl
    rw [hkinds] at hfuel ⊢
    exact reads_blockMapping hposition fun opened =>
      reads_blockEntries (m :: ms) hv.members opened (by simp at hfuel; omega)

/-- The items of a block are read back. -/
theorem reads_blockItems (vs : List Json) (hvs : ∀ v ∈ vs, Readable v) (opened : Mark) {fuel : Nat}
    {rest : List Token.Kind}
    (hfuel : (itemKinds vs).length < fuel) :
    Reads (blockItems fuel opened) (itemKinds vs ++ [.blockEnd]) rest (Json.depthItem vs)
      (List.Forall₂ Means · (readBackItems vs)) := by
  obtain ⟨fuel, rfl⟩ := Nat.exists_eq_succ_of_ne_zero (show fuel ≠ 0 by omega)
  match vs with
  | [] => exact reads_blockItems_nil
  | v :: vs =>
    obtain ⟨hv, hvs⟩ := List.forall_mem_cons.mp hvs
    simp only [itemKinds, List.length_append, List.length_cons] at hfuel
    exact reads_blockItems_cons
      (.mono (reads_node v hv (by decide) nofun (by simp; omega)) (Nat.le_max_left _ _))
      (.mono (reads_blockItems vs hvs opened (by omega)) (Nat.le_max_right _ _))

/-- So are items in the block of a mapping. -/
theorem reads_innerItems (vs : List Json) (hvs : ∀ v ∈ vs, Readable v) {fuel : Nat}
    {rest : List Token.Kind}
    (hrest : ∃ k kinds, rest = k :: kinds ∧ k ≠ .blockEntry) (hfuel : (itemKinds vs).length < fuel) :
    Reads (innerItems fuel) (itemKinds vs) rest (Json.depthItem vs)
      (List.Forall₂ Means · (readBackItems vs)) := by
  obtain ⟨fuel, rfl⟩ := Nat.exists_eq_succ_of_ne_zero (show fuel ≠ 0 by omega)
  match vs with
  | [] => exact reads_innerItems_nil hrest
  | v :: vs =>
    obtain ⟨hv, hvs⟩ := List.forall_mem_cons.mp hvs
    simp only [itemKinds, List.length_append, List.length_cons] at hfuel
    exact reads_innerItems_cons
      (.mono (reads_node v hv (by decide) nofun (by simp; omega)) (Nat.le_max_left _ _))
      (.mono (reads_innerItems vs hvs hrest (by omega)) (Nat.le_max_right _ _))

/-- So are the members of a block. -/
theorem reads_blockEntries (ms : List (String × Json)) (hms : ∀ m ∈ ms, Readable m.2) (opened : Mark)
    {fuel : Nat} {rest : List Token.Kind}
    (hfuel : (memberKinds ms).length < fuel) :
    Reads (blockEntries fuel opened) (memberKinds ms ++ [.blockEnd]) rest (Json.depthMember ms)
      (List.Forall₂ Holds · (readBackMembers ms)) := by
  obtain ⟨fuel, rfl⟩ := Nat.exists_eq_succ_of_ne_zero (show fuel ≠ 0 by omega)
  match ms with
  | [] => exact reads_blockEntries_nil
  | (name, v) :: ms =>
    obtain ⟨hv, hms⟩ := List.forall_mem_cons.mp hms
    simp only [memberKinds, List.length_append, List.length_cons] at hfuel
    obtain ⟨fuel, rfl⟩ := Nat.exists_eq_succ_of_ne_zero (show fuel ≠ 0 by omega)
    have hnext : ∃ k kinds, memberKinds ms ++ [.blockEnd] ++ rest = k :: kinds ∧ k ≠ .blockEntry := by
      match ms with
      | [] => exact ⟨_, _, rfl, by decide⟩
      | (_, _) :: _ => exact ⟨_, _, by rw [memberKinds]; rfl, by decide⟩
    have hinner := Bool.toNat_le (isSimpleKey name.toList)
    exact reads_blockEntries_cons
      (.mono (reads_node v hv (by decide) (fun _ => ⟨rfl, hnext⟩) (by omega)) (Nat.le_max_left _ _))
      (.mono (reads_blockEntries ms hms opened (by omega)) (Nat.le_max_right _ _))

end

/-! ## Documents -/

/-- Nothing but the marks of its end may follow a document. -/
theorem finish_of_kinds {root : Node} {plain : Bool}
    (h : s.kinds = (if plain then [.documentEnd] else []) ++ [.streamEnd]) : finish root s = .ok () := by
  obtain ⟨tokens, fault, anchors, handles⟩ := s
  cases plain with
  | true =>
    obtain ⟨t, ts, rfl, ht, hts⟩ := List.map_eq_cons_iff.mp h
    obtain ⟨u, us, rfl, hu, hus⟩ := List.map_eq_cons_iff.mp hts
    simp [finish, passEnds, NodeState.peek, ht, hu, bind, Except.bind]
  | false =>
    obtain ⟨t, ts, rfl, ht, hts⟩ := List.map_eq_cons_iff.mp h
    simp [finish, passEnds, NodeState.peek, ht, bind, Except.bind]

/-- From the tokens of a document its root is read, and nothing is left over. -/
theorem exists_ofStream {v : Json} (hv : Readable v) (hdepth : v.depth ≤ depthLimit)
    {tokens : List Token} (h : tokens.map Token.kind = documentKinds v) :
    ∃ root, ofStream ⟨tokens, none⟩ = .ok (some root) ∧ root.Means (readBack v) := by
  obtain ⟨k, kinds, hkinds, hopens⟩ := exists_opens v
  obtain ⟨t₀, ts, rfl, -, hts⟩ := List.map_eq_cons_iff.mp h
  generalize hs : ({ tokens := (t₀ :: ts).drop 1, fault := none } : NodeState) = s
  have hsKinds : s.kinds = nodeKinds false v ++
      ((if isPlainScalar v then [.documentEnd] else []) ++ [.streamEnd]) := by
    rw [← hs]
    exact hts
  have hbudget : (nodeKinds false v).length + Bool.toNat false < budget s := by
    have hlength := congrArg List.length hsKinds
    rw [NodeState.kinds, List.length_map, List.length_append] at hlength
    rw [budget, hlength, Bool.toNat_false]
    omega
  have hinner : ∀ rest : List Token.Kind, false = true → Position.block = .blockValue ∧
      ∃ k kinds, rest = k :: kinds ∧ k ≠ .blockEntry := nofun
  have hroom : s.depth + v.depth ≤ depthLimit := by
    rw [← hs, Nat.zero_add]
    exact hdepth
  obtain ⟨root, s', hread, hs', -, hmeans⟩ :=
    reads_node v hv (by decide) (hinner _) hbudget s hsKinds hroom
  rw [hkinds] at hsKinds
  obtain ⟨t, hpeek, hkind, -⟩ := exists_peek hsKinds
  refine ⟨root, ?_, hmeans⟩
  have hfinish : finish root s' = .ok () := finish_of_kinds hs'
  rw [ofStream, hs, hpeek]
  dsimp only [bind, Except.bind]
  rw [hkind]
  cases k with
  | scalar text plain => simp [hread, hfinish]
  | flowSequenceStart => simp [hread, hfinish]
  | flowMappingStart => simp [hread, hfinish]
  | blockSequenceStart => simp [hread, hfinish]
  | blockMappingStart => simp [hread, hfinish]
  | _ => cases hopens

end Node

end DocDesk.Yaml
