import DocDesk.Proofs.Yaml.Fault.Token
import DocDesk.Yaml.Node.Reader

/-!
# Faults of nodes

The nodes of a text are read up to a place where its tokens do not fit together, up to the fault behind
the tokens, or down to the limit of nesting.  Nothing else stops the reading, and it does not come to its
end before the tokens do.

Main statements: `Node.stops_ofStream` and `Node.streamEnd_mem_of_ofStream`.
-/

namespace DocDesk.Yaml

/-- What is left at the state are the last tokens of a stream, with the fault behind them. -/
def NodeState.From (s : NodeState) (stream : TokenStream) : Prop :=
  s.fault = stream.fault ∧ s.tokens <:+ stream.tokens

/-- The state behind the next token. -/
theorem NodeState.From.next {s : NodeState} {stream : TokenStream} (hs : s.From stream) :
    s.next.From stream :=
  ⟨hs.1, (List.drop_suffix 1 s.tokens).trans hs.2⟩

/-- Naming a node reads no token. -/
theorem NodeState.From.bind {s : NodeState} {stream : TokenStream} (hs : s.From stream)
    (anchor : Option String) (node : Anchored) : (s.bind anchor node).From stream := by
  cases anchor <;> exact hs

namespace Node

variable {stream : TokenStream}

/-- A step that fails where the text is malformed or nested too deep, or with the fault behind the
tokens. -/
abbrev Stops (stream : TokenStream) (x : Except Fault α) : Prop :=
  FailsWith (fun f => f.IsMalformed ∨ stream.fault = some f ∨ f = .value .tooDeep) x

/-- A step that stops for nothing else, and comes to a state of the same stream. -/
structure Leaves (stream : TokenStream) (state : α → NodeState) (x : Except Fault α) : Prop where
  stops : Stops stream x
  comesFrom : ∀ a, x = .ok a → (state a).From stream

/-- Such a step with a result beside the state. -/
abbrev Passes (stream : TokenStream) (x : Except Fault (Step α)) : Prop := Leaves stream Prod.snd x

/-- A malformed place stops the reading. -/
theorem stops_malformed (m : Malformed) : Stops stream (.error (.malformed m) : Except Fault α) :=
  .error (.inl ⟨m, rfl⟩)

/-- So does the end of the tokens. -/
theorem stops_endFault {s : NodeState} (hs : s.From stream) :
    Stops stream (.error s.endFault : Except Fault α) := by
  refine .error ?_
  rw [NodeState.endFault, ← hs.1]
  cases s.fault with
  | none => exact .inl ⟨_, rfl⟩
  | some f => exact .inr (.inl rfl)

/-- The next token is there, or the tokens are at their end. -/
theorem stops_peek {s : NodeState} (hs : s.From stream) : Stops stream s.peek := by
  rw [NodeState.peek]
  split
  · exact .ok
  · exact stops_endFault hs

/-- The same for its kind. -/
theorem stops_peekKind {s : NodeState} (hs : s.From stream) : Stops stream s.peekKind :=
  .bind (stops_peek hs) fun _ => .ok

namespace Leaves

variable {state : α → NodeState} {before : β → NodeState}

/-- A step that fails leaves no state. -/
theorem of_error {f : Fault} (h : Stops stream (.error f : Except Fault α)) :
    Leaves stream state (.error f) := by
  refine ⟨h, fun a ha => ?_⟩
  cases ha

/-- A step that succeeds leaves its state. -/
theorem of_ok {a : α} (h : (state a).From stream) : Leaves stream state (.ok a) := by
  refine ⟨.ok, fun b hb => ?_⟩
  cases hb
  exact h

/-- A step that fails at a malformed place. -/
theorem malformed (m : Malformed) : Leaves stream state (.error (.malformed m)) :=
  .of_error (stops_malformed m)

/-- A step that changes no state comes first. -/
theorem after {x : Except Fault β} {f : β → Except Fault α} (hx : Stops stream x)
    (hf : ∀ b, Leaves stream state (f b)) : Leaves stream state (x >>= f) := by
  refine ⟨.bind hx fun b => (hf b).stops, fun a ha => ?_⟩
  obtain ⟨b, -, ha⟩ := exists_of_bind_eq_ok ha
  exact (hf b).comesFrom a ha

/-- Two steps one after the other stop where one of them does. -/
theorem stops_bind {x : Except Fault β} {f : β → Except Fault α} (hx : Leaves stream before x)
    (hf : ∀ b, (before b).From stream → Stops stream (f b)) : Stops stream (x >>= f) := by
  intro e he
  rcases error_of_bind_eq_error he with he | ⟨b, hb, he⟩
  · exact hx.stops e he
  · exact hf b (hx.comesFrom b hb) e he

/-- Two steps one after the other leave the state that the second leaves. -/
theorem bind {x : Except Fault β} {f : β → Except Fault α} (hx : Leaves stream before x)
    (hf : ∀ b, (before b).From stream → Leaves stream state (f b)) : Leaves stream state (x >>= f) := by
  refine ⟨hx.stops_bind fun b hb => (hf b hb).stops, fun a ha => ?_⟩
  obtain ⟨b, hb, ha⟩ := exists_of_bind_eq_ok ha
  exact (hf b (hx.comesFrom b hb)).comesFrom a ha

/-- What is read is put together with what was read before. -/
theorem bind_ok {x : Except Fault (Step β)} {f : β → α} (hx : Passes stream x) :
    Passes stream (do let (b, s) ← x; .ok (f b, s)) :=
  hx.bind fun _ hs => of_ok hs

end Leaves

section

variable {s : NodeState} (hs : s.From stream)
include hs

/-- An anchor or a tag is read in front of a node. -/
theorem passes_addProperty (p : Properties) : Passes stream (addProperty p s) := by
  refine .after (stops_peek hs) fun t => ?_
  dsimp only
  split
  · exact .of_ok hs.next
  · exact .of_ok hs.next
  · exact .of_ok hs

/-- So are both of them. -/
theorem passes_properties : Passes stream (properties s) := by
  refine .bind (passes_addProperty hs _) fun (p, s) hs => ?_
  dsimp only
  split
  · exact passes_addProperty hs p
  · exact .of_ok hs

omit hs in
/-- The full tag is found, or its handle is not known. -/
theorem stops_fullTag (p : Properties) (s : NodeState) : Stops stream (fullTag p s) := by
  rw [fullTag]
  split
  · exact .ok
  · exact .ok
  · split
    · exact .ok
    · exact stops_malformed _

omit hs in
/-- An anchor is not used twice, or the reading stops. -/
theorem stops_checkAnchor (anchor : Option String) (start : Mark) (s : NodeState) :
    Stops stream (checkAnchor anchor start s) := by
  rw [checkAnchor.eq_def]
  split
  · exact .ok
  · split
    · exact .ok
    · exact stops_malformed _

/-- A scalar is named and left behind. -/
theorem passes_leaf (anchor : Option String) (node : Node) : Passes stream (leaf anchor node s) :=
  .after (stops_checkAnchor _ _ _) fun _ => .of_ok (hs.bind anchor _)

/-- An alias is read as the node it names. -/
theorem passes_ofAlias (name : String) (t : Token) : Passes stream (ofAlias name t s) := by
  rw [ofAlias]
  split
  · exact .of_ok hs.next
  · exact .malformed _

/-- A collection is read as its parts are, within the limit of nesting. -/
theorem passes_within {content : NodeState → Except Fault (Step α)}
    (hcontent : ∀ s, s.From stream → Passes stream (content s)) : Passes stream (within s content) := by
  rw [within]
  split
  · refine .bind (hcontent s.inner hs) fun b hb => ?_
    exact .of_ok hb
  · exact .of_error (.error (.inr (.inr rfl)))

/-- A sequence is read as its items are. -/
theorem passes_sequenceOf (p : Properties) (tag : Option String) (start : Mark)
    {items : NodeState → Except Fault (Step (List Node))}
    (hitems : ∀ s, s.From stream → Passes stream (items s)) :
    Passes stream (sequenceOf p tag start s items) :=
  .after (stops_checkAnchor _ _ _) fun _ =>
    .bind (passes_within (hs.bind _ _) hitems) fun _ hs =>
      .of_ok (hs.bind _ _)

/-- A mapping is read as its entries are. -/
theorem passes_mappingOf (p : Properties) (tag : Option String) (start : Mark)
    {entries : NodeState → Except Fault (Step (List (Node × Node)))}
    (hentries : ∀ s, s.From stream → Passes stream (entries s)) :
    Passes stream (mappingOf p tag start s entries) :=
  .after (stops_checkAnchor _ _ _) fun _ =>
    .bind (passes_within (hs.bind _ _) hentries) fun _ hs =>
      .of_ok (hs.bind _ _)

/-- The value behind a sign is read, or it is empty. -/
theorem passes_valueAfter (ends : Token.Kind → Bool) {read : NodeState → Except Fault (Step Node)}
    (hread : ∀ s, s.From stream → Passes stream (read s)) : Passes stream (valueAfter s ends read) := by
  refine .after (stops_peek hs) fun t => ?_
  dsimp only
  split
  · refine .after (stops_peekKind hs.next) fun kind => ?_
    split
    · exact .of_ok hs.next
    · exact hread _ hs.next
  · exact .of_ok hs

/-- The key behind a sign is read, or it is empty. -/
theorem passes_keyAfter (t : Token) (ends : Token.Kind → Bool)
    {read : NodeState → Except Fault (Step Node)}
    (hread : ∀ s, s.From stream → Passes stream (read s)) : Passes stream (keyAfter t s ends read) := by
  refine .after (stops_peekKind hs) fun kind => ?_
  split
  · exact .of_ok hs
  · exact hread _ hs

/-- What stands between two parts of a flow is read. -/
theorem leaves_separator (first : Bool) (opened : Mark) (what : String) (close : Char) :
    Leaves stream id (separator first opened what close s) := by
  rw [separator]
  split
  · exact .of_ok hs
  · refine .after (stops_peek hs) fun t => ?_
    split
    · exact .of_ok hs.next
    · exact .malformed _

end

/-- All that is read with so many steps at most. -/
structure PassesAll (stream : TokenStream) (fuel : Nat) : Prop where
  read : ∀ position s, s.From stream → Passes stream (read position fuel s)
  blockItems : ∀ opened s, s.From stream → Passes stream (blockItems fuel opened s)
  innerItems : ∀ s, s.From stream → Passes stream (innerItems fuel s)
  blockEntries : ∀ opened s, s.From stream → Passes stream (blockEntries fuel opened s)
  flowItems : ∀ opened first s, s.From stream → Passes stream (flowItems fuel opened first s)
  flowEntries : ∀ opened first s, s.From stream → Passes stream (flowEntries fuel opened first s)

namespace PassesAll

variable {fuel : Nat} (h : PassesAll stream fuel) {s : NodeState} (hs : s.From stream)
include h hs

/-- A node is read as far as its parts are. -/
theorem read_succ (position : Position) : Passes stream (Node.read position (fuel + 1) s) := by
  rw [Node.read]
  refine .after (stops_peek hs) fun t => ?_
  dsimp only
  split
  · exact passes_ofAlias hs _ _
  refine .bind (passes_properties hs) fun (p, s) hs => .after (stops_fullTag _ _) fun tag =>
    .after (stops_peek hs) fun t => ?_
  dsimp only
  split
  · exact passes_sequenceOf hs _ _ _ h.innerItems
  · exact passes_leaf (s := s.next) hs.next _ _
  · exact passes_sequenceOf hs _ _ _ fun s hs => h.flowItems _ _ s.next hs.next
  · exact passes_mappingOf hs _ _ _ fun s hs => h.flowEntries _ _ s.next hs.next
  · split
    · exact passes_sequenceOf hs _ _ _ fun s hs => h.blockItems _ s.next hs.next
    split
    · exact passes_mappingOf hs _ _ _ fun s hs => h.blockEntries _ s.next hs.next
    split
    · exact passes_leaf hs _ _
    · exact .malformed _

/-- The items of a block are read one after the other. -/
theorem blockItems_succ (opened : Mark) : Passes stream (Node.blockItems (fuel + 1) opened s) := by
  rw [Node.blockItems]
  refine .after (stops_peek hs) fun t => ?_
  dsimp only
  split
  · refine .after (stops_peekKind (s := s.next) hs.next) fun kind => ?_
    split
    · exact .bind (Leaves.of_ok hs.next : Passes stream _) fun (_, s) hs => (h.blockItems _ s hs).bind_ok
    · exact .bind (h.read _ _ hs.next) fun (_, s) hs => (h.blockItems _ s hs).bind_ok
  · exact .of_ok hs.next
  · exact .malformed _

/-- So are items that stand in the block of a mapping. -/
theorem innerItems_succ : Passes stream (Node.innerItems (fuel + 1) s) := by
  rw [Node.innerItems]
  refine .after (stops_peek hs) fun t => ?_
  dsimp only
  split
  · refine .after (stops_peekKind (s := s.next) hs.next) fun kind => ?_
    split
    · exact .bind (Leaves.of_ok hs.next : Passes stream _) fun (_, s) hs => (h.innerItems s hs).bind_ok
    · exact .bind (h.read _ _ hs.next) fun (_, s) hs => (h.innerItems s hs).bind_ok
  · exact .of_ok hs

/-- So are the entries of a block. -/
theorem blockEntries_succ (opened : Mark) : Passes stream (Node.blockEntries (fuel + 1) opened s) := by
  rw [Node.blockEntries]
  refine .after (stops_peek hs) fun t => ?_
  dsimp only
  split
  · exact .bind (passes_keyAfter (s := s.next) hs.next _ _ (h.read _)) fun (key, s) hs =>
      .bind (passes_valueAfter hs _ (h.read _)) fun (value, s) hs => (h.blockEntries _ _ hs).bind_ok
  · exact .of_ok hs.next
  · exact .malformed _

/-- So are the items between brackets. -/
theorem flowItems_succ (opened : Mark) (first : Bool) :
    Passes stream (Node.flowItems (fuel + 1) opened first s) := by
  rw [Node.flowItems]
  refine .after (stops_peekKind hs) fun kind => ?_
  split
  · exact .of_ok hs.next
  refine .bind (leaves_separator hs _ _ _ _) fun s hs => .after (stops_peek hs) fun t => ?_
  dsimp only
  split
  · exact .of_ok hs.next
  · refine .bind (passes_within (s := s.next) hs.next fun s hs => ?_) fun (pair, s) hs =>
      (h.flowItems _ _ _ hs).bind_ok
    exact .bind (passes_keyAfter hs _ _ (h.read _)) fun (key, s) hs =>
      .bind (passes_valueAfter hs _ (h.read _)) fun (value, s) hs => .of_ok hs
  · exact .bind (h.read _ _ hs) fun (item, s) hs => (h.flowItems _ _ _ hs).bind_ok

/-- So are the entries between braces. -/
theorem flowEntries_succ (opened : Mark) (first : Bool) :
    Passes stream (Node.flowEntries (fuel + 1) opened first s) := by
  rw [Node.flowEntries]
  refine .after (stops_peekKind hs) fun kind => ?_
  split
  · exact .of_ok hs.next
  refine .bind (leaves_separator hs _ _ _ _) fun s hs => .after (stops_peek hs) fun t => ?_
  dsimp only
  split
  · exact .of_ok hs.next
  · exact .bind (passes_keyAfter (s := s.next) hs.next _ _ (h.read _)) fun (key, s) hs =>
      .bind (passes_valueAfter hs _ (h.read _)) fun (value, s) hs => (h.flowEntries _ _ _ hs).bind_ok
  · exact .bind (h.read _ _ hs) fun (key, s) hs => .after (stops_peek hs) fun t =>
      (h.flowEntries _ _ _ hs).bind_ok

end PassesAll

/-- Whatever the fuel, all readings stop for the same reasons. -/
theorem passesAll (stream : TokenStream) (fuel : Nat) : PassesAll stream fuel := by
  induction fuel with
  | zero =>
    exact {
      read := fun _ _ hs => .of_error (stops_endFault hs)
      blockItems := fun _ _ hs => .of_error (stops_endFault hs)
      innerItems := fun _ hs => .of_error (stops_endFault hs)
      blockEntries := fun _ _ hs => .of_error (stops_endFault hs)
      flowItems := fun _ _ _ hs => .of_error (stops_endFault hs)
      flowEntries := fun _ _ _ hs => .of_error (stops_endFault hs) }
  | succ fuel ih =>
    exact {
      read := fun _ _ hs => ih.read_succ hs _
      blockItems := fun _ _ hs => ih.blockItems_succ hs _
      innerItems := fun _ hs => ih.innerItems_succ hs
      blockEntries := fun _ _ hs => ih.blockEntries_succ hs _
      flowItems := fun _ _ _ hs => ih.flowItems_succ hs _ _
      flowEntries := fun _ _ _ hs => ih.flowEntries_succ hs _ _ }

/-! ## Documents -/

/-- Directives are read up to the start of the document. -/
theorem leaves_directives {s : NodeState} (hs : s.From stream) (fuel : Nat) (versioned : Bool) :
    Leaves stream id (directives fuel versioned s) := by
  induction fuel generalizing s versioned with
  | zero => exact .of_ok hs
  | succ fuel ih =>
    rw [directives]
    refine .after (stops_peek hs) fun t => ?_
    split
    · split
      · exact .malformed _
      split
      · exact .malformed _
      · exact ih (s := s.next) hs.next _
    · split
      · exact .malformed _
      · exact ih (s := { s.next with handles := _ :: s.handles }) hs.next _
    · exact ih (s := s.next) hs.next _
    · exact .of_ok hs

/-- The start of a document is read. -/
theorem leaves_documentStart {s : NodeState} (hs : s.From stream) :
    Leaves stream id (documentStart s) := by
  refine .bind (leaves_directives (s := { s with handles := [] }) hs _ _) fun s hs =>
    .after (stops_peek (s := { s with handles := _ }) hs) fun t => ?_
  split
  · exact .of_ok hs.next
  · exact .malformed _

/-- The content of a document is read, or it is empty. -/
theorem passes_content {s : NodeState} (hs : s.From stream) : Passes stream (content s) := by
  refine .after (stops_peek hs) fun t => ?_
  split
  · exact .of_ok hs
  · exact .of_ok hs
  · exact .of_ok hs
  · exact .of_ok hs
  · exact (passesAll stream _).read _ _ hs

/-- The marks of a document's end are tokens of the stream. -/
theorem from_passEnds {s : NodeState} (hs : s.From stream) : (passEnds s).From stream :=
  ⟨hs.1, (List.dropWhile_suffix _).trans hs.2⟩

/-- Behind the content the document has to end. -/
theorem stops_finish (root : Node) {s : NodeState} (hs : s.From stream) :
    Stops stream (finish root s) := by
  refine .bind (stops_peek hs) fun _ => .bind (stops_peek (from_passEnds hs)) fun t => ?_
  split
  · exact .ok
  · exact .bind (leaves_documentStart (from_passEnds hs)).stops fun _ => stops_malformed _

/-- A document of which nothing is left but its end. -/
theorem stops_closed {x : Except Fault (Step Node)} (hx : Passes stream x) :
    Stops stream (do let (root, s) ← x; finish root s; .ok (some root)) :=
  hx.stops_bind fun _ hs => .bind (stops_finish _ hs) fun _ => .ok

/-- The document of a stream is read, unless the text is malformed or nested too deep or the fault behind the
tokens is met. -/
theorem stops_ofStream (stream : TokenStream) : Stops stream (ofStream stream) := by
  let s : NodeState := { tokens := stream.tokens.drop 1, fault := stream.fault }
  have hs : s.From stream := ⟨rfl, List.drop_suffix 1 _⟩
  have hstarted := (leaves_documentStart hs).stops_bind fun s hs => stops_closed (passes_content hs)
  refine .bind (stops_peek hs) fun t => ?_
  split
  · exact .ok
  · exact hstarted
  · exact hstarted
  · exact stops_closed ((passesAll _ _).read _ s hs)

/-! ## The end of the tokens -/

/-- The next token is one of the stream. -/
theorem mem_of_peek {s : NodeState} (hs : s.From stream) {t : Token} (h : s.peek = .ok t) :
    t.kind ∈ stream.tokens.map Token.kind := by
  rw [NodeState.peek] at h
  split at h
  · next u tokens htokens =>
    cases h
    exact List.mem_map_of_mem (hs.2.mem (htokens ▸ List.mem_cons_self))
  · cases h

/-- Nothing but the end of the tokens is left behind a document. -/
theorem streamEnd_mem_of_closed {x : Except Fault (Step Node)} (hx : Passes stream x) {r : Option Node}
    (h : (do let (root, s) ← x; finish root s; .ok (some root)) = .ok r) :
    Token.Kind.streamEnd ∈ stream.tokens.map Token.kind := by
  obtain ⟨⟨root, s⟩, hread, h⟩ := exists_of_bind_eq_ok h
  obtain ⟨_, hfinish, -⟩ := exists_of_bind_eq_ok h
  rw [finish] at hfinish
  obtain ⟨_, -, hfinish⟩ := exists_of_bind_eq_ok hfinish
  obtain ⟨t, ht, hfinish⟩ := exists_of_bind_eq_ok hfinish
  split at hfinish
  · next hend => exact hend ▸ mem_of_peek (from_passEnds (hx.comesFrom _ hread)) ht
  · obtain ⟨_, -, hfinish⟩ := exists_of_bind_eq_ok hfinish
    cases hfinish

/-- A stream is read only if its tokens come to their end. -/
theorem streamEnd_mem_of_ofStream {stream : TokenStream} {r : Option Node} (h : ofStream stream = .ok r) :
    Token.Kind.streamEnd ∈ stream.tokens.map Token.kind := by
  have hs : NodeState.From { tokens := stream.tokens.drop 1, fault := stream.fault } stream :=
    ⟨rfl, List.drop_suffix 1 _⟩
  have hstarted : (do
      let s ← documentStart { tokens := stream.tokens.drop 1, fault := stream.fault }
      let (root, s) ← content s
      finish root s
      .ok (some root)) = .ok r → Token.Kind.streamEnd ∈ stream.tokens.map Token.kind := by
    intro h
    obtain ⟨s, hstart, h⟩ := exists_of_bind_eq_ok h
    exact streamEnd_mem_of_closed (passes_content ((leaves_documentStart hs).comesFrom s hstart)) h
  rw [ofStream] at h
  obtain ⟨t, ht, h⟩ := exists_of_bind_eq_ok h
  split at h
  · next hend => exact hend ▸ mem_of_peek hs ht
  · exact hstarted h
  · exact hstarted h
  · exact streamEnd_mem_of_closed ((passesAll _ _).read _ _ hs) h

end Node

end DocDesk.Yaml
