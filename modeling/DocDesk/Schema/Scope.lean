import DocDesk.Schema.Library
import DocDesk.Schema.Pointer

/-!
# References between schemas

A reference is resolved against the base of the place where it stands; a dynamic one also against the bases
of the places that led there, the outermost first.

Main definitions: `Scope.lookup` and `Scope.lookupRecursive`.
-/

namespace DocDesk.Schema

/-- Where a schema stands: the draft in force, the base of its references, and the bases that were left
on the way, the last one first. -/
structure Scope where
  draft : Draft
  base : String
  outer : List String

namespace Scope

/-- The scope of the root of a document. -/
def ofRoot (r : Resource) : Scope := ⟨r.draft, r.name?.getD "", []⟩

/-- The scope inside a schema that may name its own base. -/
def enter (s : Scope) (r : Resource) : Scope :=
  match r.name? with
  | some n => { s with base := joinNames s.base n }
  | none => s

/-- The scope at another base; the base that is left is remembered. -/
def leave (s : Scope) (base : String) : Scope :=
  let remembered := s.base ≠ "" ∧ (s.outer = [] ∨ base ≠ s.base)
  { s with base, outer := if remembered then s.base :: s.outer else s.outer }

/-! ## Pointers -/

/-- Whether steps lead from a schema to a schema inside it. -/
def leadsToSchema (d : Draft) (contents : Json) : List Step → Bool
  | [] => true
  | .index _ :: _ => false
  | .name s :: steps =>
    let isObject := contents matches .obj _
    let direct := d ≠ .draft2020 && s = "items" || d.isOld && s = "dependencies"
    let p := d.places
    let inValue := p.inValue ++
      (if d.isOldest then ["additionalItems", "additionalProperties"] else [])
    if direct && isObject then true
    else if s ∈ inValue then leadsToSchema d contents steps
    else if s ∈ p.inArray ++ p.inMembers then
      match steps with
      | [] => false
      | _ :: steps => leadsToSchema d contents steps
    else false

/-- The part of a value that a step of a pointer names: a member, or an item counted from either end. -/
def part (v : Json) (token : List Char) (nowhere : Failure) : Except Failure (Step × Json) :=
  match v with
  | .obj ms =>
    let name := String.ofList (Pointer.unescape token)
    match Json.member? ms name with
    | some w => .ok (.name name, w)
    | none => .error nowhere
  | .arr _ | .str _ =>
    match Whole.read (String.ofList token) with
    | .error f => .error (.index f)
    | .ok i =>
      let vs := match v with
        | .arr vs => vs
        | .str s => s.toList.map fun c => .str (String.singleton c)
        | _ => []
      let i := if i < 0 then i + vs.length else i
      if i < 0 then .error nowhere
      else match vs[i.toNat]? with
        | some w => .ok (.index i.toNat, w)
        | none => .error nowhere
  | v => .error (.notSubscriptable v.kindName)

/-- Follows the steps of a pointer.  A schema on the way that names its own base changes the base. -/
def follow (d : Draft) (nowhere : Failure) :
    List (List Char) → List Step → Json → Scope → Except Failure (Json × Scope)
  | [], _, v, s => .ok (v, s)
  | token :: tokens, steps, v, s => do
    let (step, w) ← part v token nowhere
    let steps := steps ++ [step]
    let r : Resource := ⟨d, w⟩
    if leadsToSchema d w steps && r.name?.isSome then follow d nowhere tokens [] w (s.enter r)
    else follow d nowhere tokens steps w s

/-! ## References -/

/-- The place of an anchor.  A dynamic one gives way to the outermost of the same name. -/
def ofAnchor (s : Scope) (l : Library) (name : String) (a : Anchor) : Except Failure (Json × Scope) := do
  if a.isDynamic then
    let further ← s.outer.filterMapM fun base => do
      return (← l.anchor? base name).filter (·.isDynamic)
    let target := (further.getLast?.getD a).resource
    return (target.contents, s.enter target)
  else return (a.resource.contents, s)

/-- The resource that a reference names, and the fragment that says where in it. -/
def address (s : Scope) (reference : String) : String × List Char :=
  let cs := reference.toList
  if cs.head? = some '#' then (s.base, cs.drop 1)
  else
    let (uri, fragment) := Uri.withoutFragment (Uri.join s.base.toList cs)
    (String.ofList uri, fragment)

/-- What a reference leads to, and the scope there.  A failure tells whether the reference was
being followed to check a value. -/
def lookup (l : Library) (s : Scope) (reference : String) (followed : Bool) :
    Except Failure (Json × Scope) := do
  let fail (f : ReferenceFault) : Except Failure (Json × Scope) := .error (.reference f followed)
  let (uri, fragment) := s.address reference
  match ← l.resource? uri with
  | none => fail (.unknownResource reference)
  | some r =>
    let there := s.leave uri
    match fragment with
    | [] => return (r.contents, there)
    | '/' :: pointer =>
      let nowhere : Failure :=
        .reference (.nowhere (String.ofList fragment) r.contents) followed
      follow r.draft nowhere (Text.splitAt '/' (Uri.unescaped pointer)) [] r.contents there
    | _ =>
      let name := String.ofList fragment
      match ← l.anchor? uri name with
      | some a => there.ofAnchor l name a
      | none =>
        if '/' ∈ fragment then fail (.badAnchor name) else fail (.noAnchor name r.contents)

/-- A schema that lets recursive references to it be taken further out. -/
def isRecursiveAnchor : Json → Bool
  | .obj ms => (Json.member? ms "$recursiveAnchor").any fun v => !v.isFalsy
  | _ => false

/-- The outermost of the schemas on the way that are open to recursive references in a row. -/
def outermost (l : Library) (s : Scope) (followed : Bool) :
    List String → Json × Scope → Except Failure (Json × Scope)
  | [], found => .ok found
  | base :: bases, found => do
    let next ← s.lookup l base followed
    if isRecursiveAnchor next.1 then outermost l s followed bases next else return found

/-- What a recursive reference leads to. -/
def lookupRecursive (l : Library) (s : Scope) (followed : Bool) : Except Failure (Json × Scope) := do
  let found ← s.lookup l "#" followed
  if isRecursiveAnchor found.1 then outermost l s followed s.outer found else return found

end Scope

end DocDesk.Schema
