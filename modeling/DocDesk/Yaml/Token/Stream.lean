import DocDesk.Yaml.Token.Block
import DocDesk.Yaml.Token.Plain
import DocDesk.Yaml.Token.Property
import DocDesk.Yaml.Token.Quoted

/-!
# The tokens of a text

Tokens are cut off one after the other.  Outside brackets and braces, indentation opens and closes
blocks.  A node on one line may turn out to be the key of a member when a colon follows it: until then
it is a pending key, and when the colon comes a key token goes in before it.

A fault may lie behind tokens that are still good.  The tokens before the first pending key are kept
beside the fault, since whoever takes the tokens in order may find a fault in those first.

Main definition: `TokenStream.ofChars`.
-/

namespace DocDesk.Yaml

/-- A node that may turn out to be a key: the depth of brackets around it, the number of the token
before which a key token would go, and whether the place demands a key. -/
structure PendingKey where
  depth : Nat
  number : Nat
  required : Bool
  place : Mark
deriving DecidableEq, Repr

/-- The state between two tokens.  Tokens are kept newest first, and so are pending keys. -/
structure TokenState where
  cursor : Cursor
  newest : List Token
  depth : Nat
  indent : Int
  outer : List Int
  keyAllowed : Bool
  pending : List PendingKey

namespace TokenState

/-- The state at the start of a text. -/
def start (cs : List Char) : TokenState :=
  ⟨Cursor.ofChars cs, [Token.virtual .streamStart Mark.start], 0, -1, [], true, []⟩

/-- Adds a token. -/
def push (s : TokenState) (t : Token) : TokenState := { s with newest := t :: s.newest }

/-- Adds a token without characters at the cursor. -/
def pushVirtual (s : TokenState) (kind : Token.Kind) : TokenState :=
  s.push (.virtual kind s.cursor.place)

/-- Adds a token of the next characters. -/
def pushNext (s : TokenState) (kind : Token.Kind) (length : Nat) : TokenState :=
  let next := s.cursor.forward length
  { s.push ⟨kind, s.cursor.place, next.place⟩ with cursor := next }

/-! ## Pending keys -/

/-- How far a key may reach. -/
def keyReach : Nat := 1024

/-- A pending key that can no longer be one: its line has ended or it has grown too long. -/
def isStale (here : Mark) (k : PendingKey) : Bool :=
  k.place.line ≠ here.line || keyReach < here.index - k.place.index

/-- The fault of a required key that came to nothing. -/
def missingColon (here : Mark) (k : PendingKey) : Except Fault α :=
  malformed (.scanning "a simple key") k.place .missingColon here

/-- Gives up the pending keys that can no longer be keys. -/
def dropStale (s : TokenState) : Except Fault TokenState :=
  let here := s.cursor.place
  match s.pending.find? fun k => isStale here k && k.required with
  | some k => missingColon here k
  | none => .ok { s with pending := s.pending.filter fun k => !isStale here k }

/-- Gives up the pending key of the present depth. -/
def dropKey (s : TokenState) : Except Fault TokenState :=
  match s.pending.find? fun k => k.depth = s.depth && k.required with
  | some k => missingColon s.cursor.place k
  | none => .ok { s with pending := s.pending.filter fun k => k.depth ≠ s.depth }

/-- Notes that the next token may start a key. -/
def saveKey (s : TokenState) : Except Fault TokenState :=
  if s.keyAllowed then do
    let s ← s.dropKey
    let required := s.depth = 0 && s.indent = (s.cursor.column : Int)
    let key : PendingKey := ⟨s.depth, s.newest.length, required, s.cursor.place⟩
    .ok { s with pending := key :: s.pending }
  else .ok s

/-- Puts a token before the token with a number, in a list of tokens kept newest first. -/
def insertBefore (number : Nat) (t : Token) (newest : List Token) : List Token :=
  let later := newest.length - number
  newest.take later ++ t :: newest.drop later

/-! ## Blocks -/

/-- Closes the blocks that are indented deeper than a column. -/
def closeBlocks (column : Int) : List Int → TokenState → TokenState
  | outer, s =>
    if s.depth ≠ 0 ∨ s.indent ≤ column then s
    else match outer with
      | [] => s
      | i :: rest =>
        closeBlocks column rest { s.pushVirtual .blockEnd with indent := i, outer := rest }
termination_by outer _ => outer.length

/-- Closes the blocks that are indented deeper than a column. -/
def unwind (s : TokenState) (column : Int) : TokenState := closeBlocks column s.outer s

/-- Whether a block opens at a column. -/
def opensBlock (s : TokenState) (column : Nat) : Bool := s.indent < (column : Int)

/-- Goes in to a column. -/
def indentTo (s : TokenState) (column : Nat) : TokenState :=
  { s with indent := column, outer := s.indent :: s.outer }

/-- Opens a block at the cursor, if it is indented deeper than the blocks around it. -/
def openBlock (s : TokenState) (kind : Token.Kind) : TokenState :=
  if s.opensBlock s.cursor.column then (s.pushVirtual kind).indentTo s.cursor.column else s

/-! ## Single tokens -/

/-- The end of the text. -/
def streamEnd (s : TokenState) : Except Fault TokenState := do
  let s ← (s.unwind (-1)).dropKey
  .ok { s.pushVirtual .streamEnd with keyAllowed := false, pending := [] }

/-- A directive. -/
def directive (s : TokenState) : Except Fault TokenState := do
  let s ← (s.unwind (-1)).dropKey
  let (t, next) ← directiveToken s.cursor
  .ok { s.push t with keyAllowed := false, cursor := next }

/-- A mark between documents. -/
def separator (s : TokenState) (kind : Token.Kind) : Except Fault TokenState := do
  let s ← (s.unwind (-1)).dropKey
  .ok { s.pushNext kind 3 with keyAllowed := false }

/-- An opening bracket or brace. -/
def openFlow (s : TokenState) (kind : Token.Kind) : Except Fault TokenState := do
  let s ← s.saveKey
  .ok { s.pushNext kind 1 with depth := s.depth + 1, keyAllowed := true }

/-- A closing bracket or brace. -/
def closeFlow (s : TokenState) (kind : Token.Kind) : Except Fault TokenState := do
  let s ← s.dropKey
  .ok { s.pushNext kind 1 with depth := s.depth - 1, keyAllowed := false }

/-- A comma. -/
def flowEntry (s : TokenState) : Except Fault TokenState := do
  let s ← s.dropKey
  .ok { s.pushNext .flowEntry 1 with keyAllowed := true }

/-- A hyphen before an item. -/
def blockEntry (s : TokenState) : Except Fault TokenState := do
  if s.depth = 0 && !s.keyAllowed then malformedAt (.misplaced "sequence entries") s.cursor.place
  else
    let s := if s.depth = 0 then s.openBlock .blockSequenceStart else s
    let s ← s.dropKey
    .ok { s.pushNext .blockEntry 1 with keyAllowed := true }

/-- A question mark before a key. -/
def key (s : TokenState) : Except Fault TokenState := do
  if s.depth = 0 && !s.keyAllowed then malformedAt (.misplaced "mapping keys") s.cursor.place
  else
    let s := if s.depth = 0 then s.openBlock .blockMappingStart else s
    let s ← s.dropKey
    .ok { s.pushNext .key 1 with keyAllowed := s.depth = 0 }

/-- Makes a pending key a key: its token, and the start of a block before it where one opens. -/
def settleKey (s : TokenState) (k : PendingKey) : TokenState :=
  let s := { s with
    pending := s.pending.filter fun p => p.depth ≠ s.depth
    newest := insertBefore k.number (.virtual .key k.place) s.newest }
  if s.depth = 0 && s.opensBlock k.place.column then
    { s with newest := insertBefore k.number (.virtual .blockMappingStart k.place) s.newest }.indentTo
      k.place.column
  else s

/-- A colon before a value. -/
def value (s : TokenState) : Except Fault TokenState := do
  match s.pending.find? fun k => k.depth = s.depth with
  | some k => .ok { (s.settleKey k).pushNext .value 1 with keyAllowed := false }
  | none =>
    if s.depth = 0 && !s.keyAllowed then malformedAt (.misplaced "mapping values") s.cursor.place
    else
      let s := if s.depth = 0 then s.openBlock .blockMappingStart else s
      let s ← s.dropKey
      .ok { s.pushNext .value 1 with keyAllowed := s.depth = 0 }

/-- An anchor or an alias. -/
def named (s : TokenState) (what : String) (kind : String → Token.Kind) :
    Except Fault TokenState := do
  let s ← s.saveKey
  let (name, next) ← anchorName what s.cursor
  .ok { s.push ⟨kind name, s.cursor.place, next.place⟩ with keyAllowed := false, cursor := next }

/-- A tag. -/
def tag (s : TokenState) : Except Fault TokenState := do
  let s ← s.saveKey
  let (t, next) ← tagToken s.cursor
  .ok { s.push t with keyAllowed := false, cursor := next }

/-- A block scalar. -/
def blockScalar (s : TokenState) (folded : Bool) : Except Fault TokenState := do
  let s ← s.dropKey
  let (t, next) ← blockToken folded s.indent s.cursor
  .ok { s.push t with keyAllowed := true, cursor := next }

/-- A quoted scalar. -/
def quotedScalar (s : TokenState) (double : Bool) : Except Fault TokenState := do
  let s ← s.saveKey
  let (t, next) ← quotedToken double s.cursor
  .ok { s.push t with keyAllowed := false, cursor := next }

/-- A plain scalar. -/
def plainScalar (s : TokenState) : Except Fault TokenState := do
  let s ← s.saveKey
  let (t, passedBreak, next) := plainToken (s.depth ≠ 0) (s.indent + 1) s.cursor
  .ok { s.push t with keyAllowed := passedBreak, cursor := next }

/-! ## The next token -/

/-- Characters that start no plain scalar. -/
def isIndicator (ch : Char) : Bool :=
  ['-', '?', ':', ',', '[', ']', '{', '}', '#', '&', '*', '!', '|', '>', '\'', '"', '%', '@',
    '\x60'].contains ch

/-- A plain scalar starts at the cursor. -/
def startsPlain (s : TokenState) : Bool :=
  let ch := s.cursor.peek
  !(isBlankOrBreak ch || isIndicator ch)
    || (!isBlankOrBreak (s.cursor.peekAt 1) && (ch = '-' || (s.depth = 0 && (ch = '?' || ch = ':'))))

/-- Passes blanks, comments and line breaks; a line break outside brackets allows a key again. -/
def toNextToken : Nat → TokenState → TokenState
  | 0, s => s
  | fuel + 1, s =>
    let c := s.cursor.skipBlanks.skipComment
    match c.lineBreak? with
    | none => { s with cursor := c }
    | some (_, next) =>
      toNextToken fuel { s with cursor := next, keyAllowed := s.keyAllowed || s.depth = 0 }

/-- Passes a byte order mark at the start of the text. -/
def skipByteOrderMark (s : TokenState) : TokenState :=
  if s.cursor.place.index = 0 && s.cursor.peek = '\uFEFF' then { s with cursor := s.cursor.advance }
  else s

/-- The token at the cursor. -/
def cut (s : TokenState) : Except Fault TokenState :=
  let c := s.cursor
  let ch := c.peek
  let apart := s.depth ≠ 0 || isBlankOrBreak (c.peekAt 1)
  if c.rest.isEmpty then s.streamEnd
  else if ch = '%' && c.column = 0 then s.directive
  else if c.column = 0 && c.isTriple '-' then s.separator .documentStart
  else if c.column = 0 && c.isTriple '.' then s.separator .documentEnd
  else if ch = '[' then s.openFlow .flowSequenceStart
  else if ch = '{' then s.openFlow .flowMappingStart
  else if ch = ']' then s.closeFlow .flowSequenceEnd
  else if ch = '}' then s.closeFlow .flowMappingEnd
  else if ch = ',' then s.flowEntry
  else if ch = '-' && isBlankOrBreak (c.peekAt 1) then s.blockEntry
  else if ch = '?' && apart then s.key
  else if ch = ':' && apart then s.value
  else if ch = '*' then s.named "an alias" .alias
  else if ch = '&' then s.named "an anchor" .anchor
  else if ch = '!' then s.tag
  else if ch = '|' && s.depth = 0 then s.blockScalar false
  else if ch = '>' && s.depth = 0 then s.blockScalar true
  else if ch = '\'' then s.quotedScalar false
  else if ch = '"' then s.quotedScalar true
  else if s.startsPlain then s.plainScalar
  else .error (.malformed ⟨some (.scanning "for the next token"), none, .noToken ch, c.place⟩)

/-- Adds the next token, with the ends of blocks before it. -/
def step (s : TokenState) : Except Fault TokenState := do
  let s ← (toNextToken (s.cursor.rest.length + 1) s.skipByteOrderMark).dropStale
  let s ← (s.unwind s.cursor.column).cut
  s.dropStale

/-- The last token ends the text. -/
def isDone (s : TokenState) : Bool := s.newest.head?.any fun t => t.kind = .streamEnd

/-- The tokens that are certain: those before the first pending key. -/
def certain (s : TokenState) : List Token :=
  let number := (s.pending.getLast?.map PendingKey.number).getD s.newest.length
  s.newest.reverse.take number

end TokenState

/-- The tokens of a text, up to a fault if there is one. -/
structure TokenStream where
  tokens : List Token
  fault : Option Fault

namespace TokenStream

/-- The tokens from a state on. -/
def collect : Nat → TokenState → TokenStream
  | 0, s => ⟨s.newest.reverse, none⟩
  | fuel + 1, s =>
    if s.isDone then ⟨s.newest.reverse, none⟩
    else match s.step with
      | .ok next => collect fuel next
      | .error f => ⟨s.certain, some f⟩

/-- The tokens of a text. -/
def ofChars (cs : List Char) : TokenStream := collect (cs.length + 2) (.start cs)

end TokenStream

end DocDesk.Yaml
