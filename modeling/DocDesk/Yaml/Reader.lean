import DocDesk.Json.Reader
import DocDesk.Json.Writer
import DocDesk.Yaml.Node.Reader
import DocDesk.Yaml.Value

/-!
# Reading YAML as a JSON document

The document of a YAML text as a JSON document: moments become texts, bytes the text they encode, and
keys that are no texts are written as one.  A document that aliases nest deeper than JSON text goes is
refused.

Main definition: `read`.
-/

namespace DocDesk.Yaml

namespace Value

/-- The member name that a key is written as. -/
def name : Value → Except ValueFault String
  | .null => .ok "null"
  | .bool b => .ok (if b then "true" else "false")
  | .int i =>
    match intText? i with
    | .ok cs => .ok (String.ofList cs)
    | .error f => .error (.unwritable f)
  | .float x => .ok (String.ofList (Json.Writer.floatText x))
  | .str cs => .ok (String.ofList cs)
  | .bytes _ => .error (.keyKind "bytes")
  | .time t => .error (.keyKind (if t.time.isSome then "datetime" else "date"))
  | .list _ | .pairs _ | .map _ => .error (.keyKind "list")
  | .set _ => .error (.keyKind "set")
  | .loop => .error .circular

mutual

/-- A value as a JSON document. -/
def toJson : Value → Except ValueFault Json
  | .null => .ok .null
  | .bool b => .ok (.bool b)
  | .int i =>
    match intText? i with
    | .ok _ => .ok (.int i)
    | .error f => .error (.unwritable f)
  | .float x => .ok (.float x)
  | .str cs => .ok (.str (String.ofList cs))
  | .bytes content => .ok (.str (String.ofList (Utf8.decodeLenient content)))
  | .time t => .ok (.str t.text)
  | .list vs => return .arr (← itemsToJson vs)
  | .set vs => return .arr (← itemsToJson vs)
  | .pairs ms => return .arr (← pairsToJson ms)
  | .map ms => return .obj (← membersToJson ms)
  | .loop => .error .circular

/-- Items as JSON documents. -/
def itemsToJson : List Value → Except ValueFault (List Json)
  | [] => .ok []
  | v :: vs => do
    let v ← toJson v
    return v :: (← itemsToJson vs)

/-- Pairs as arrays of two. -/
def pairsToJson : List (Value × Value) → Except ValueFault (List Json)
  | [] => .ok []
  | (k, v) :: ms => do
    let k ← toJson k
    let v ← toJson v
    return .arr [k, v] :: (← pairsToJson ms)

/-- Members as members of an object. -/
def membersToJson : List (Value × Value) → Except ValueFault (List (String × Json))
  | [] => .ok []
  | (k, v) :: ms => do
    let k ← k.name
    let v ← toJson v
    return (k, v) :: (← membersToJson ms)

end

end Value

/-- A character that may occur in YAML text. -/
def isAcceptable (c : Char) : Bool := isRaw c || c = '\t' || c = '\r' || c.toNat = 0xFEFF || c.toNat = 0x10FFFF

/-- The fault of a text with a character that may not occur. -/
def unacceptable? (cs : List Char) : Option Fault :=
  let good := cs.takeWhile isAcceptable
  (cs.drop good.length).head?.map fun c => .unacceptable c good.length

/-- The document of a text; a text without one is null. -/
def readChars (cs : List Char) : Except Fault Json :=
  match unacceptable? cs with
  | some f => .error f
  | none => do
    match ← Node.ofStream (.ofChars cs) with
    | none => .ok .null
    | some root =>
      match (← root.toValue).toJson with
      | .ok v => if Json.Reader.depthLimit < v.depth then .error (.value .tooDeep) else .ok v
      | .error f => .error (.value f)

/-- The document of a text; a text without one is null. -/
def read (s : String) : Except Fault Json := readChars s.toList

end DocDesk.Yaml
