import DocDesk.Text.Base64
import DocDesk.Yaml.Numeral

/-!
# Values of nodes

The value that a node stands for by its tag.  The members of a mapping under a merge key go in front of
its own.  Scalars are valued where they stand, collections after everything on the levels above them,
so of several faults the one on the highest level counts, and on one level the first.

Main definition: `Node.toValue`.
-/

namespace DocDesk.Yaml

/-- A value of a YAML document. -/
inductive Value where
  | null
  | bool (b : Bool)
  | int (i : Int)
  | float (x : Binary64)
  | str (text : List Char)
  | bytes (content : List Nat)
  | time (t : Timestamp)
  | list (items : List Value)
  | pairs (members : List (Value × Value))
  | set (items : List Value)
  | map (members : List (Value × Value))
  /-- A collection within itself. -/
  | loop
deriving Inhabited

namespace Value

/-- A value that can be the key of a member. -/
def isKey : Value → Bool
  | .list _ | .pairs _ | .set _ | .map _ | .loop => false
  | _ => true

/-- The whole number that a boolean or integer is. -/
def whole? : Value → Option Int
  | .bool b => some (if b then 1 else 0)
  | .int i => some i
  | _ => none

/-- Two keys that name the same member: numbers of equal value do, of whatever kind. -/
def sameKey (a b : Value) : Bool :=
  match a, b with
  | .null, .null => true
  | .str s, .str t => s = t
  | .bytes s, .bytes t => s = t
  | .time s, .time t => s = t
  | .float x, .float y => x.numEq y || (x.isNaN && y.isNaN)
  | .float x, b => b.whole?.any fun i => Binary64.compareInt? i x = some .eq
  | a, .float y => a.whole?.any fun i => Binary64.compareInt? i y = some .eq
  | a, b =>
    match a.whole?, b.whole? with
    | some i, some j => i = j
    | _, _ => false

/-- Stores a value under a key: in place if the key is there, at the end if not. -/
def store (members : List (Value × Value)) (key value : Value) : List (Value × Value) :=
  match members with
  | [] => [(key, value)]
  | (k, v) :: rest => if sameKey k key then (k, value) :: rest else (k, v) :: store rest key value

/-- The members that pairs leave behind. -/
def ofPairs (pairs : List (Value × Value)) : List (Value × Value) :=
  pairs.foldl (fun ms p => store ms p.1 p.2) []

end Value

/-! ## Valued nodes -/

/-- A fault with the number of levels below the present one at which it arises. -/
abbrev LevelFault := Nat × Fault

/-- The fault that counts of two: the one on the higher level, and the first on the same level. -/
def earlier : Option LevelFault → Option LevelFault → Option LevelFault
  | none, b => b
  | a, none => a
  | some a, some b => some (if b.1 < a.1 then b else a)

/-- A node with the value it stands for.  `text` is the scalar it counts as where a scalar is wanted,
and `entries` are its members with the merged ones in front. -/
inductive Valued where
  | mk (kind : NodeKind) (start : Mark) (tag : String) (text : Except Fault (List Char))
      (result : Except LevelFault Value) (items : List Valued) (raw : List (Valued × Valued))
      (entries : Except Fault (List (Valued × Valued)))

namespace Valued

/-- The kind of the node. -/
def kind : Valued → NodeKind | .mk k _ _ _ _ _ _ _ => k
/-- The place where the node starts. -/
def start : Valued → Mark | .mk _ s _ _ _ _ _ _ => s
/-- The tag of the node. -/
def tag : Valued → String | .mk _ _ t _ _ _ _ _ => t
/-- The scalar that the node counts as. -/
def text : Valued → Except Fault (List Char) | .mk _ _ _ t _ _ _ _ => t
/-- The value, or the fault that counts. -/
def result : Valued → Except LevelFault Value | .mk _ _ _ _ r _ _ _ => r
/-- The items of a sequence. -/
def items : Valued → List Valued | .mk _ _ _ _ _ i _ _ => i
/-- The members of a mapping as they are written. -/
def raw : Valued → List (Valued × Valued) | .mk _ _ _ _ _ _ r _ => r
/-- The members of a mapping with the merged ones in front. -/
def entries : Valued → Except Fault (List (Valued × Valued)) | .mk _ _ _ _ _ _ _ e => e

/-- The value, where there is one. -/
def value (v : Valued) : Value :=
  match v.result with
  | .ok x => x
  | .error _ => .null

/-- The fault of the value. -/
def fault? (v : Valued) : Option LevelFault :=
  match v.result with
  | .ok _ => none
  | .error f => some f

end Valued

/-- A fault on the present level. -/
def here (f : Fault) : LevelFault := (0, f)

/-- The fault of a part of a collection, seen from the level of the collection. -/
def below (f : Option LevelFault) : Option LevelFault := f.map fun f => (f.1 + 1, f.2)

/-- A fault of a collection's own, one level below where it stands. -/
def own (f : Fault) : LevelFault := (1, f)

/-- A malformed place, as a fault. -/
def fault (context : Option Context) (since : Option Mark) (problem : Problem) (place : Mark) : Fault :=
  .malformed ⟨context, since, problem, place⟩

namespace Node

/-! ## Scalars -/

/-- A value fault on the present level. -/
def valued (r : Except ValueFault Value) : Except LevelFault Value :=
  match r with
  | .ok v => .ok v
  | .error f => .error (here (.value f))

/-- The positions of the first run of characters beyond ASCII, with its first character. -/
def beyondAscii? (cs : List Char) : Option (Nat × Nat × Char) :=
  let before := cs.takeWhile fun c => c.toNat < 128
  let run := (cs.drop before.length).takeWhile fun c => 128 ≤ c.toNat
  run.head?.map fun c => (before.length, run.length, c)

/-- A character by its number, as messages show it. -/
def numbered (c : Char) : List Char :=
  if c.toNat < 0x100 then '\\' :: 'x' :: Text.hexText 2 c.toNat
  else if c.toNat < 0x10000 then '\\' :: 'u' :: Text.hexText 4 c.toNat
  else '\\' :: 'U' :: Text.hexText 8 c.toNat

/-- The refusal of characters beyond ASCII. -/
def asciiMessage (position count : Nat) (c : Char) : String :=
  let shown :=
    if count = 1 then
      "character '" ++ String.ofList (numbered c) ++ "' in position " ++ String.ofList (natText position)
    else
      "characters in position " ++ String.ofList (natText position) ++ "-"
        ++ String.ofList (natText (position + count - 1))
  "'ascii' codec can't encode " ++ shown ++ ": ordinal not in range(128)"

/-- The bytes that a scalar encodes. -/
def toBytes (start : Mark) (cs : List Char) : Except LevelFault Value :=
  match beyondAscii? cs with
  | some (position, count, c) =>
    .error (here (fault none none (.notAscii (asciiMessage position count c)) start))
  | none =>
    match Base64.decode cs with
    | .ok bytes => .ok (.bytes bytes)
    | .error f => .error (here (fault none none (.notBase64 f.message) start))

/-- The word of a text for true or false. -/
def toBool (cs : List Char) : Except ValueFault Value :=
  let word := String.ofList (cs.map Text.lowerChar)
  match Plain.boolWords.lookup word with
  | some b => .ok (.bool b)
  | none => .error (.notBool word)

/-- The moment that a text names. -/
def toTime (cs : List Char) : Except ValueFault Value :=
  match Timestamp.ofChars? (if cs.getLast? = some '\n' then cs.dropLast else cs) with
  | none => .error .notTimestamp
  | some t =>
    match t.fault? with
    | some f => .error (.timestamp f)
    | none => .ok (.time t)

/-- The tags whose values are made from one scalar, with what is made of it. -/
def ofScalar? (tag : String) (kind : NodeKind) (start : Mark) :
    Option (List Char → Except LevelFault Value) :=
  if tag = Tag.core "null" then some fun _ => .ok .null
  else if tag = Tag.core "bool" then some fun cs => valued (toBool cs)
  else if tag = Tag.core "int" then some fun cs => valued ((Numeral.toInt cs).map .int)
  else if tag = Tag.core "float" then some fun cs => valued ((Numeral.toReal cs).map .float)
  else if tag = Tag.core "str" then some fun cs => .ok (.str cs)
  else if tag = Tag.core "binary" then some (toBytes start)
  else if tag = Tag.core "timestamp" then some fun cs =>
    valued (if kind = .scalar then toTime cs else .error .timestampOfMapping)
  else none

/-! ## Collections -/

/-- The fault that counts among parts that are valued in order. -/
def firstFault (parts : List Valued) : Option LevelFault :=
  parts.foldr (fun p f => earlier p.fault? f) none

/-- A node that cannot be a key: a collection, be it sound or at fault further down. -/
def notKey (key : Valued) : Bool :=
  match key.result with
  | .ok value => !value.isKey
  | .error (level, _) => level != 0

/-- The fault that counts among members; a key has to be usable before its value is looked at. -/
def memberFault (start : Mark) (members : List (Valued × Valued)) : Option LevelFault :=
  members.foldr (fun m f =>
    let unusable :=
      if notKey m.1 then
        some (here (fault (some (.constructing "a mapping")) (some start) .unusableKey m.1.start))
      else none
    earlier m.1.fault? (earlier unusable (earlier m.2.fault? f))) none

/-- The members of a mapping as values. -/
def memberValues (members : List (Valued × Valued)) : List (Value × Value) :=
  Value.ofPairs (members.map fun m => (m.1.value, m.2.value))

/-- The value of a mapping, made from its members. -/
def mapResult (kind : NodeKind) (start : Mark) (entries : Except Fault (List (Valued × Valued)))
    (make : List (Value × Value) → Value) : Except LevelFault Value :=
  if kind ≠ .mapping then .error (own (fault none none (.notOfKind .mapping kind) start))
  else match entries with
    | .error f => .error (own f)
    | .ok members =>
      match below (memberFault start members) with
      | some f => .error f
      | none => .ok (make (memberValues members))

/-- The value of a sequence. -/
def listResult (kind : NodeKind) (start : Mark) (items : List Valued) : Except LevelFault Value :=
  if kind ≠ .sequence then .error (own (fault none none (.notOfKind .sequence kind) start))
  else match below (firstFault items) with
    | some f => .error f
    | none => .ok (.list (items.map Valued.value))

/-- The fault of an item that has to be a mapping of one member. -/
def pairFault (what : String) (start : Mark) (item : Valued) : Option LevelFault :=
  let report (p : Problem) : Option LevelFault :=
    some (here (fault (some (.constructing what)) (some start) p item.start))
  if item.kind ≠ .mapping then report (.notPair item.kind)
  else match item.raw with
    | [(key, value)] => earlier key.fault? value.fault?
    | ms => report (.severalPairs ms.length)

/-- The value of a sequence of single members, named for messages. -/
def pairsResult (what : String) (kind : NodeKind) (start : Mark) (items : List Valued) :
    Except LevelFault Value :=
  if kind ≠ .sequence then
    .error (own (fault (some (.constructing what)) (some start) (.notSequence kind) start))
  else match below (items.foldr (fun i f => earlier (pairFault what start i) f) none) with
    | some f => .error f
    | none =>
      .ok (.pairs ((items.flatMap Valued.raw).map fun m => (m.1.value, m.2.value)))

/-- The value of a node by its tag. -/
def result (kind : NodeKind) (start : Mark) (tag : String) (text : Except Fault (List Char))
    (items : List Valued) (entries : Except Fault (List (Valued × Valued))) :
    Except LevelFault Value :=
  match ofScalar? tag kind start with
  | some make =>
    match text with
    | .ok cs => make cs
    | .error f => .error (here f)
  | none =>
    if tag = Tag.core "seq" then listResult kind start items
    else if tag = Tag.core "map" then mapResult kind start entries .map
    else if tag = Tag.core "set" then mapResult kind start entries fun ms => .set (ms.map Prod.fst)
    else if tag = Tag.core "omap" then pairsResult "an ordered map" kind start items
    else if tag = Tag.core "pairs" then pairsResult "pairs" kind start items
    else .error (here (fault none none (.unknownTag tag) start))

/-- The members that a mapping around the present one brings in: it goes round in a circle. -/
def circle (loop : Valued) : List (Valued × Valued) :=
  [(.mk .scalar loop.start (Tag.core "str") (.ok []) (.ok (.str [])) [] [] (.ok []), loop)]

/-- A node within itself. -/
def isLoop (v : Valued) : Bool :=
  match v.result with
  | .ok .loop => true
  | _ => false

/-- The members that a merge key brings in.  A mapping that is merged into itself brings in none. -/
def merged (start : Mark) (value : Valued) : Except Fault (List (Valued × Valued)) :=
  let report (p : Problem) (place : Mark) : Except Fault (List (Valued × Valued)) :=
    .error (fault (some (.constructing "a mapping")) (some start) p place)
  if isLoop value && value.kind = .mapping && value.start ≠ start then .ok (circle value)
  else match value.kind with
  | .mapping => value.entries
  | .sequence =>
    value.items.foldl (fun acc item => do
      let later ← acc
      if item.kind = .mapping then
        let ms ← item.entries
        .ok (ms ++ later)
      else report (.mergeItem item.kind) item.start) (.ok [])
  | .scalar => report (.mergeValue .scalar) value.start

/-- A key with the tag of a default value counts as text. -/
def plainKey (key : Valued) : Valued :=
  if key.tag = Tag.core "value" then
    match key with
    | .mk kind start _ text _ items raw entries =>
      .mk kind start (Tag.core "str") text
        (match text with
        | .ok cs => .ok (.str cs)
        | .error f => .error (here f)) items raw entries
  else key

/-- The members of a mapping: those of merge keys, then its own. -/
def withMerges (start : Mark) (raw : List (Valued × Valued)) :
    Except Fault (List (Valued × Valued)) := do
  let isMerge (m : Valued × Valued) : Bool := m.1.tag = Tag.core "merge"
  let parts ← (raw.filter isMerge).mapM fun m => merged start m.2
  .ok (parts.flatten ++ (raw.filter (!isMerge ·)).map fun m => (plainKey m.1, m.2))

/-- The scalar that a mapping counts as: the one under its key for a default value. -/
def defaultText (start : Mark) (raw : List (Valued × Valued)) : Except Fault (List Char) :=
  match raw.find? fun m => m.1.tag = Tag.core "value" with
  | some m => m.2.text
  | none => .error (fault none none (.notOfKind .scalar .mapping) start)

mutual

/-- Values a node and all below it. -/
def valuate : Node → Valued
  | .scalar tag text start =>
    .mk .scalar start tag (.ok text) (result .scalar start tag (.ok text) [] (.ok [])) [] [] (.ok [])
  | .sequence tag items start =>
    let parts := valuateItems items
    let text := .error (fault none none (.notOfKind .scalar .sequence) start)
    .mk .sequence start tag text (result .sequence start tag text parts (.ok [])) parts [] (.ok [])
  | .mapping tag entries start =>
    let raw := valuateEntries entries
    let text := defaultText start raw
    let members := withMerges start raw
    .mk .mapping start tag text (result .mapping start tag text [] members) [] raw members
  | .loop kind start =>
    .mk kind start "" (.error (fault none none (.notOfKind .scalar kind) start)) (.ok .loop) [] []
      (.ok [])

/-- Values the items of a sequence. -/
def valuateItems : List Node → List Valued
  | [] => []
  | n :: ns => valuate n :: valuateItems ns

/-- Values the members of a mapping. -/
def valuateEntries : List (Node × Node) → List (Valued × Valued)
  | [] => []
  | (k, v) :: ms => (valuate k, valuate v) :: valuateEntries ms

end

/-- The value of a node. -/
def toValue (n : Node) : Except Fault Value :=
  match n.valuate.result with
  | .ok v => .ok v
  | .error f => .error f.2

end Node

end DocDesk.Yaml
