import DocDesk.Schema.Draft
import DocDesk.Schema.Shape

/-!
# Resources

A resource is a schema with the draft by which its identifiers are read: its own name, the names of places
in it, and the schemas directly inside it.

Main definitions: `Resource.name?`, `Draft.anchors` and `Draft.subschemas`.
-/

namespace DocDesk.Schema

/-- A schema with the draft by which its identifiers are read. -/
structure Resource where
  draft : Draft
  contents : Json

/-- A named place in a resource; a dynamic one gives way to one further out. -/
structure Anchor where
  resource : Resource
  isDynamic : Bool

namespace Draft

/-- The text under a keyword. -/
def text? (ms : List (String × Json)) (name : String) : Option String :=
  match Json.member? ms name with
  | some (.str s) => some s
  | _ => none

/-- The keyword of identifiers. -/
def idKeyword (d : Draft) : String := if d.isOldest then "id" else "$id"

/-- A text that starts with a number sign. -/
def isLocal (s : String) : Bool := s.toList.head? = some '#'

/-- The identifier of a schema.  In older drafts one beside a reference does not count, nor one that only
names a place in the document. -/
def id? (d : Draft) (contents : Json) : Option String :=
  match contents with
  | .obj ms =>
    match text? ms d.idKeyword with
    | some s =>
      if d.isOld && (isLocal s || ms.any (·.1 = "$ref")) then none
      else some s
    | none => none
  | _ => none

/-- The anchors at a schema, with whether they are dynamic. -/
def anchors (d : Draft) (contents : Json) : List (String × Bool) :=
  match contents with
  | .obj ms =>
    if d.isOld then
      ((text? ms d.idKeyword).filter isLocal).toList.map fun s => (String.ofList (s.toList.drop 1), false)
    else
      (text? ms "$anchor").toList.map (·, false)
        ++ (if d = .draft2020 then (text? ms "$dynamicAnchor").toList.map (·, true) else [])
  | _ => []

/-- The members of what stands where a schema should; fails where it is none. -/
def parts (d : Draft) (contents : Json) : Except Failure (List (String × Json)) :=
  match contents with
  | .obj ms => .ok ms
  | .bool _ => if d.isOldest then .error (.noMembership contents.kindName) else .ok []
  | .str _ | .arr _ => .error (.noAttribute contents.kindName "get")
  | v => .error (if d.isOld then .noMembership v.kindName else .noAttribute v.kindName "get")

/-- The values of an object. -/
def values (v : Json) : Except Failure (List Json) :=
  match v with
  | .obj ms => .ok (ms.map Prod.snd)
  | v => .error (.noAttribute v.kindName "values")

/-- The schemas under a keyword whose value may be a schema or hold schemas.  Dependencies hold schemas if
the first one is a schema. -/
def eitherSchemas (ms : List (String × Json)) (name : String) : Except Failure (List Json) :=
  match name, Json.member? ms name with
  | _, none | _, some .null => .ok []
  | "items", some (.arr vs) => .ok vs
  | "items", some v => .ok [v]
  | "dependencies", some v => do
    match ← values v with
    | .obj first :: rest => return .obj first :: rest
    | _ => return []
  | _, some (.obj ms) => .ok [.obj ms]
  | _, _ => .ok []

/-- The schemas directly inside a schema. -/
def subschemas (d : Draft) (contents : Json) : Except Failure (List Json) := do
  let ms ← d.parts contents
  let under (names : List String) : List Json := names.filterMap (Json.member? ms)
  let inArrays ← (under d.places.inArray).mapM Shape.items
  let inMembers ← (under d.places.inMembers).mapM values
  let either ← d.eitherPlaces.mapM (eitherSchemas ms)
  return under d.places.inValue ++ (inArrays ++ inMembers ++ either).flatten

/-- The draft that a schema names, or else a given one. -/
def detect (otherwise : Draft) (contents : Json) : Draft :=
  match contents with
  | .obj ms => ((text? ms "$schema").bind ofUri?).getD otherwise
  | _ => otherwise

end Draft

/-- A name without number signs at its end. -/
def bareName (s : String) : String :=
  String.ofList (s.toList.reverse.dropWhile (· = '#')).reverse

/-- A name, read against a base. -/
def joinNames (base name : String) : String := String.ofList (Uri.join base.toList name.toList)

/-- The name that a resource gives itself. -/
def Resource.name? (r : Resource) : Option String := (r.draft.id? r.contents).map bareName

end DocDesk.Schema
