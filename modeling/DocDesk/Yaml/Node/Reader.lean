import DocDesk.Nesting
import DocDesk.Yaml.Node.Basic
import DocDesk.Yaml.Token.Stream

/-!
# The document of a token stream

Nodes are read by descent over the tokens.  An anchor names its node from its start on, so that an
alias within the node is a loop.  A stream holds at most one document.  Collections nest no deeper than
`depthLimit`; an alias nests nothing, whatever the node that it names.

Main definition: `ofStream`.
-/

namespace DocDesk.Yaml

/-- What an anchor names: a node that is being read, or one that has been. -/
inductive Anchored where
  | around (kind : NodeKind) (start : Mark)
  | done (node : Node)

/-- The node that an alias stands for. -/
def Anchored.node : Anchored → Node
  | .around kind start => .loop kind start
  | .done node => node

/-- The state of reading: the tokens left, the fault behind them, the anchors and the handles, and how
many collections are being read. -/
structure NodeState where
  tokens : List Token
  fault : Option Fault
  anchors : List (String × Anchored) := []
  handles : List (String × String) := Tag.knownHandles
  depth : Nat := 0

namespace NodeState

/-- The fault where the tokens run out. -/
def endFault (s : NodeState) : Fault :=
  s.fault.getD (.malformed ⟨none, none, .unexpectedEnd, Mark.start⟩)

/-- The next token. -/
def peek (s : NodeState) : Except Fault Token :=
  match s.tokens with
  | t :: _ => .ok t
  | [] => .error s.endFault

/-- The kind of the next token. -/
def peekKind (s : NodeState) : Except Fault Token.Kind := do
  let t ← s.peek
  .ok t.kind

/-- The state after the next token. -/
def next (s : NodeState) : NodeState := { s with tokens := s.tokens.drop 1 }

/-- The state inside one more collection. -/
def inner (s : NodeState) : NodeState := { s with depth := s.depth + 1 }

/-- Names a node. -/
def bind (s : NodeState) (anchor : Option String) (node : Anchored) : NodeState :=
  match anchor with
  | none => s
  | some name => { s with anchors := (name, node) :: s.anchors }

end NodeState

/-- A node with the state after it. -/
abbrev Step (α : Type) := α × NodeState

namespace Node

/-! ## Anchors and tags -/

/-- What stands before a node: where it starts, its anchor and its tag. -/
structure Properties where
  start : Option Mark := none
  stop : Option Mark := none
  anchor : Option String := none
  tagMark : Option Mark := none
  tag : Option (Option String × String) := none

/-- Adds the next token to the properties, if it is an anchor or a tag that they lack. -/
def addProperty (p : Properties) (s : NodeState) : Except Fault (Step Properties) := do
  let t ← s.peek
  let start := p.start <|> some t.start
  match t.kind, p.anchor, p.tag with
  | .anchor name, none, _ =>
    .ok ({ p with start, stop := some t.stop, anchor := some name }, s.next)
  | .tag handle suffix, _, none =>
    .ok ({ p with start, stop := some t.stop, tagMark := some t.start, tag := some (handle, suffix) },
      s.next)
  | _, _, _ => .ok (p, s)

/-- The anchor and the tag before a node, in either order. -/
def properties (s : NodeState) : Except Fault (Step Properties) := do
  let (p, s) ← addProperty {} s
  if p.start.isSome then addProperty p s else .ok (p, s)

/-- The full tag of a node. -/
def fullTag (p : Properties) (s : NodeState) : Except Fault (Option String) :=
  match p.tag with
  | none => .ok none
  | some (none, suffix) => .ok (some suffix)
  | some (some handle, suffix) =>
    match s.handles.lookup handle with
    | some expansion => .ok (some (expansion ++ suffix))
    | none =>
      .error (.malformed ⟨some (.parsing "a node"), p.start, .unknownHandle handle,
        p.tagMark.getD Mark.start⟩)

/-- A tag that leaves the kind to be found out. -/
def isOpenTag (tag : Option String) : Bool := tag = none || tag = some "!"

/-- The tag of a scalar. -/
def scalarTag (tag : Option String) (plain : Bool) (text : List Char) : String :=
  match tag with
  | some "!" => Tag.ofPlain (resolve text)
  | some tag => tag
  | none => if plain then Tag.ofPlain (resolve text) else Tag.core "str"

/-- The tag of a collection. -/
def collectionTag (tag : Option String) (name : String) : String :=
  if isOpenTag tag then Tag.core name else tag.getD ""

/-- A scalar without text. -/
def empty (place : Mark) : Node := .scalar (Tag.core "null") [] place

/-- Refuses an anchor that names a node already. -/
def checkAnchor (anchor : Option String) (start : Mark) (s : NodeState) : Except Fault Unit :=
  match anchor with
  | none => .ok ()
  | some name =>
    match s.anchors.lookup name with
    | none => .ok ()
    | some first =>
      .error (.malformed ⟨some (.firstAnchor name), some first.node.start, .secondAnchor, start⟩)

/-! ## Nodes -/

/-- Where a node stands: in a block, in a block where hyphens may start its items at once, or within
brackets or braces. -/
inductive Position where
  | block
  | blockValue
  | flow
deriving DecidableEq, Repr

/-- The end of a scalar or alias: nothing more belongs to it. -/
def leaf (anchor : Option String) (node : Node) (s : NodeState) : Except Fault (Step Node) := do
  checkAnchor anchor node.start s
  .ok (node, s.bind anchor (.done node))

/-- The node that an alias names. -/
def ofAlias (name : String) (t : Token) (s : NodeState) : Except Fault (Step Node) :=
  match s.anchors.lookup name with
  | some a => .ok (a.node, s.next)
  | none => malformedAt (.unknownAlias name) t.start

/-- The greatest number of collections that are read within each other: a level takes two calls. -/
def depthLimit : Nat := Nesting.levels 20 2

/-- Reads within one more collection. -/
def within (s : NodeState) (content : NodeState → Except Fault (Step α)) : Except Fault (Step α) :=
  if s.depth < depthLimit then do
    let (a, s') ← content s.inner
    .ok (a, { s' with depth := s.depth })
  else .error (.value .tooDeep)

/-- A sequence around items that are still to be read. -/
def sequenceOf (p : Properties) (tag : Option String) (start : Mark) (s : NodeState)
    (items : NodeState → Except Fault (Step (List Node))) : Except Fault (Step Node) := do
  checkAnchor p.anchor start s
  let (items, s) ← within (s.bind p.anchor (.around .sequence start)) items
  let node := Node.sequence (collectionTag tag "seq") items start
  .ok (node, s.bind p.anchor (.done node))

/-- A mapping around entries that are still to be read. -/
def mappingOf (p : Properties) (tag : Option String) (start : Mark) (s : NodeState)
    (entries : NodeState → Except Fault (Step (List (Node × Node)))) : Except Fault (Step Node) := do
  checkAnchor p.anchor start s
  let (entries, s) ← within (s.bind p.anchor (.around .mapping start)) entries
  let node := Node.mapping (collectionTag tag "map") entries start
  .ok (node, s.bind p.anchor (.done node))

/-- A kind of token before which a block item or value is empty. -/
def endsBlockItem : Token.Kind → Bool
  | .blockEntry | .blockEnd => true
  | _ => false

/-- A kind of token before which an item without an indentation of its own is empty. -/
def endsInnerItem : Token.Kind → Bool
  | .blockEntry | .key | .value | .blockEnd => true
  | _ => false

/-- A kind of token before which the key or value of a block mapping is empty. -/
def endsBlockValue : Token.Kind → Bool
  | .key | .value | .blockEnd => true
  | _ => false

/-- A kind of token before which the key or value of a pair within brackets is empty. -/
def endsFlowPart (close : Token.Kind) (kind : Token.Kind) : Bool :=
  kind = .flowEntry || kind = close

/-- The value behind a colon, or an empty one where no colon stands. -/
def valueAfter (s : NodeState) (ends : Token.Kind → Bool)
    (read : NodeState → Except Fault (Step Node)) : Except Fault (Step Node) := do
  let t ← s.peek
  if t.kind = .value then
    let s := s.next
    if ends (← s.peekKind) then .ok (empty t.stop, s) else read s
  else .ok (empty t.start, s)

/-- The key behind its mark, or an empty one. -/
def keyAfter (t : Token) (s : NodeState) (ends : Token.Kind → Bool)
    (read : NodeState → Except Fault (Step Node)) : Except Fault (Step Node) := do
  if ends (← s.peekKind) then .ok (empty t.stop, s) else read s

/-- Passes the comma between two parts of a flow collection. -/
def separator (first : Bool) (opened : Mark) (what : String) (close : Char) (s : NodeState) :
    Except Fault NodeState := do
  if first then .ok s
  else
    let t ← s.peek
    if t.kind = .flowEntry then .ok s.next
    else malformed (.parsing what) opened (.noSeparator close t.kind.name) t.start

mutual

/-- A node at a position. -/
def read (position : Position) : Nat → NodeState → Except Fault (Step Node)
  | 0, s => .error s.endFault
  | fuel + 1, s => do
    let t ← s.peek
    match t.kind with
    | .alias name => ofAlias name t s
    | _ => do
      let (p, s) ← properties s
      let tag ← fullTag p s
      let t ← s.peek
      let start := p.start.getD t.start
      match t.kind, position with
      | .blockEntry, .blockValue => sequenceOf p tag start s (innerItems fuel)
      | .scalar text plain, _ => leaf p.anchor (.scalar (scalarTag tag plain text) text start) s.next
      | .flowSequenceStart, _ => sequenceOf p tag start s (fun s => flowItems fuel t.start true s.next)
      | .flowMappingStart, _ => mappingOf p tag start s (fun s => flowEntries fuel t.start true s.next)
      | kind, _ =>
        if kind = .blockSequenceStart ∧ position ≠ .flow then
          sequenceOf p tag start s (fun s => blockItems fuel t.start s.next)
        else if kind = .blockMappingStart ∧ position ≠ .flow then
          mappingOf p tag start s (fun s => blockEntries fuel t.start s.next)
        else if p.start.isSome then
          leaf p.anchor (.scalar (if isOpenTag tag then Tag.core "null" else tag.getD "") [] start) s
        else
          malformed (.parsing (if position = .flow then "a flow node" else "a block node")) start
            (.noContent kind.name) t.start

/-- The items of a block sequence that opened at a place. -/
def blockItems : Nat → Mark → NodeState → Except Fault (Step (List Node))
  | 0, _, s => .error s.endFault
  | fuel + 1, opened, s => do
    let t ← s.peek
    match t.kind with
    | .blockEntry => do
      let s := s.next
      let (item, s) ←
        if endsBlockItem (← s.peekKind) then .ok (empty t.stop, s) else read .block fuel s
      let (items, s) ← blockItems fuel opened s
      .ok (item :: items, s)
    | .blockEnd => .ok ([], s.next)
    | kind => malformed (.parsing "a block collection") opened (.noBlockEnd kind.name) t.start

/-- The items of a block sequence at the column of its key. -/
def innerItems : Nat → NodeState → Except Fault (Step (List Node))
  | 0, s => .error s.endFault
  | fuel + 1, s => do
    let t ← s.peek
    match t.kind with
    | .blockEntry => do
      let s := s.next
      let (item, s) ←
        if endsInnerItem (← s.peekKind) then .ok (empty t.stop, s) else read .block fuel s
      let (items, s) ← innerItems fuel s
      .ok (item :: items, s)
    | _ => .ok ([], s)

/-- The entries of a block mapping that opened at a place. -/
def blockEntries : Nat → Mark → NodeState → Except Fault (Step (List (Node × Node)))
  | 0, _, s => .error s.endFault
  | fuel + 1, opened, s => do
    let t ← s.peek
    match t.kind with
    | .key => do
      let (key, s) ← keyAfter t s.next endsBlockValue (read .blockValue fuel)
      let (value, s) ← valueAfter s endsBlockValue (read .blockValue fuel)
      let (entries, s) ← blockEntries fuel opened s
      .ok ((key, value) :: entries, s)
    | .blockEnd => .ok ([], s.next)
    | kind => malformed (.parsing "a block mapping") opened (.noBlockEnd kind.name) t.start

/-- The items of a flow sequence that opened at a place. -/
def flowItems : Nat → Mark → Bool → NodeState → Except Fault (Step (List Node))
  | 0, _, _, s => .error s.endFault
  | fuel + 1, opened, first, s => do
    if (← s.peekKind) = .flowSequenceEnd then .ok ([], s.next)
    else
      let s ← separator first opened "a flow sequence" ']' s
      let t ← s.peek
      match t.kind with
      | .flowSequenceEnd => .ok ([], s.next)
      | .key => do
        let ends := endsFlowPart .flowSequenceEnd
        let (pair, s) ← within s.next fun s => do
          let (key, s) ← keyAfter t s (fun k => ends k || k = .value) (read .flow fuel)
          let (value, s) ← valueAfter s ends (read .flow fuel)
          .ok (Node.mapping (Tag.core "map") [(key, value)] t.start, s)
        let (items, s) ← flowItems fuel opened false s
        .ok (pair :: items, s)
      | _ => do
        let (item, s) ← read .flow fuel s
        let (items, s) ← flowItems fuel opened false s
        .ok (item :: items, s)

/-- The entries of a flow mapping that opened at a place. -/
def flowEntries : Nat → Mark → Bool → NodeState → Except Fault (Step (List (Node × Node)))
  | 0, _, _, s => .error s.endFault
  | fuel + 1, opened, first, s => do
    if (← s.peekKind) = .flowMappingEnd then .ok ([], s.next)
    else
      let s ← separator first opened "a flow mapping" '\x7d' s
      let t ← s.peek
      match t.kind with
      | .flowMappingEnd => .ok ([], s.next)
      | .key => do
        let ends := endsFlowPart .flowMappingEnd
        let (key, s) ← keyAfter t s.next (fun k => ends k || k = .value) (read .flow fuel)
        let (value, s) ← valueAfter s ends (read .flow fuel)
        let (entries, s) ← flowEntries fuel opened false s
        .ok ((key, value) :: entries, s)
      | _ => do
        let (key, s) ← read .flow fuel s
        let value := empty (← s.peek).start
        let (entries, s) ← flowEntries fuel opened false s
        .ok ((key, value) :: entries, s)

end

/-! ## Documents -/

/-- Reads the directives at the start of a document, given the version read so far. -/
def directives : Nat → Bool → NodeState → Except Fault NodeState
  | 0, _, s => .ok s
  | fuel + 1, versioned, s => do
    let t ← s.peek
    match t.kind with
    | .directive (.version major _) =>
      if versioned then malformedAt .repeatedVersion t.start
      else if major ≠ 1 then malformedAt .otherVersion t.start
      else directives fuel true s.next
    | .directive (.handle handle expansion) =>
      if (s.handles.lookup handle).isSome then malformedAt (.repeatedHandle handle) t.start
      else directives fuel versioned { s.next with handles := (handle, expansion) :: s.handles }
    | .directive .other => directives fuel versioned s.next
    | _ => .ok s

/-- The directives of a document and the mark of its start. -/
def documentStart (s : NodeState) : Except Fault NodeState := do
  let s ← directives (s.tokens.length + 1) false { s with handles := [] }
  let s := { s with handles := s.handles ++ Tag.knownHandles }
  let t ← s.peek
  if t.kind = .documentStart then .ok s.next
  else malformedAt (.noDocumentStart t.kind.name) t.start

/-- Enough steps to read every node of a state. -/
def budget (s : NodeState) : Nat := 2 * s.tokens.length + 4

/-- The content of a document after the mark of its start. -/
def content (s : NodeState) : Except Fault (Step Node) := do
  let t ← s.peek
  match t.kind with
  | .directive _ | .documentStart | .documentEnd | .streamEnd => .ok (empty t.start, s)
  | _ => read .block (budget s) s

/-- Passes the marks of a document's end. -/
def passEnds (s : NodeState) : NodeState :=
  { s with tokens := s.tokens.dropWhile fun t => t.kind = .documentEnd }

/-- Refuses anything behind a document. -/
def finish (root : Node) (s : NodeState) : Except Fault Unit := do
  let _ ← s.peek
  let s := passEnds s
  let t ← s.peek
  if t.kind = .streamEnd then .ok ()
  else
    let _ ← documentStart s
    .error (.malformed ⟨some .singleDocument, some root.start, .otherDocument, t.start⟩)

/-- The document of a stream, if there is one. -/
def ofStream (stream : TokenStream) : Except Fault (Option Node) := do
  let s : NodeState := { tokens := stream.tokens.drop 1, fault := stream.fault }
  let t ← s.peek
  match t.kind with
  | .streamEnd => .ok none
  | .directive _ | .documentStart => do
    let s ← documentStart s
    let (root, s) ← content s
    finish root s
    .ok (some root)
  | _ => do
    let (root, s) ← read .block (budget s) s
    finish root s
    .ok (some root)

end Node

end DocDesk.Yaml
