import DocDesk.Schema.Checker

/-!
# Evaluated parts

The items and the members of a value that a schema, together with the schemas that it applies to the same
value, has something to say about.  What is left is the matter of the keywords for unevaluated parts.

Main definitions: `names` and `indexes`.
-/

namespace DocDesk.Schema.Evaluated

/-- The schemas, with their scopes, that a schema applies by reference. -/
def referred (l : Library) (scope : Scope) (ms : List (String × Json)) : Except Failure (List (Json × Scope)) := do
  let target (found : Json × Scope) : Except Failure (Json × Scope) := do
    let d ← draftOf found.1 scope.draft
    return (found.1, { found.2 with draft := d })
  let follow (name : String) : Except Failure (List (Json × Scope)) :=
    match Json.member? ms name with
    | none | some .null => .ok []
    | some (.str r) => do return [← target (← scope.lookup l r false)]
    | some v => .error (.noAttribute v.kindName "startswith")
  let plain ← follow "$ref"
  if scope.draft = .draft2019 then
    if ms.any (·.1 = "$recursiveRef") then
      return plain ++ [← target (← scope.lookupRecursive l false)]
    else return plain
  else return plain ++ (← follow "$dynamicRef")

variable (c : Checker)

/-- The schemas of the branches of a condition that apply to a value. -/
def branches (scope : Scope) (ms : List (String × Json)) (data : Json) :
    Except Failure (List Json) := do
  match Json.member? ms "if" with
  | none => return []
  | some condition =>
    if ← c.isValid scope condition data then
      return condition :: (Json.member? ms "then").toList
    else return (Json.member? ms "else").toList

/-- The schemas that a keyword lists, none if it is not there. -/
def listed (ms : List (String × Json)) (name : String) : Except Failure (List Json) :=
  match Json.member? ms name with
  | some v => Shape.items v
  | none => .ok []

/-- The alternatives that a value is valid under. -/
def alternatives (scope : Scope) (ms : List (String × Json)) (data : Json) :
    Except Failure (List Json) := do
  let schemas ← ["allOf", "oneOf", "anyOf"].mapM (listed ms)
  schemas.flatten.filterM fun schema => (c.descend scope schema data).isClean

/-- The numbers of the items that are valid under a schema. -/
def validIndexes (scope : Scope) (schema : Json) (vs : List Json) : Except Failure (List Nat) := do
  let valid ← vs.zipIdx.filterM fun (v, _) => c.isValid scope schema v
  return valid.map Prod.snd

/-- The numbers of the items that the keywords for items evaluate; none if it is all of them. -/
def itemIndexes (modern : Bool) (ms : List (String × Json)) : Except Failure (Option (List Nat)) := do
  if modern then
    if ms.any (·.1 = "items") then return none
    match Json.member? ms "prefixItems" with
    | some v => return some (List.range (← Shape.length v))
    | none => return some []
  else
    match Json.member? ms "items" with
    | none => return some []
    | some v =>
      if ms.any (·.1 = "additionalItems") || v matches .obj _ then return none
      return some (List.range (← Shape.length v))

/-- The numbers of the items that a schema evaluates. -/
def indexes (modern : Bool) (vs : List Json) : Nat → Scope → Json → Except Failure (List Nat)
  | 0, _, _ => .error .endless
  | fuel + 1, scope, schema =>
    match schema with
    | .bool _ => .ok []
    | .obj ms => do
      match ← itemIndexes modern ms with
      | none => return List.range vs.length
      | some direct =>
        let data : Json := .arr vs
        let far ← (← referred c.library scope ms).mapM fun r => indexes modern vs fuel r.2 r.1
        let chosen ← (← branches c scope ms data).mapM (indexes modern vs fuel scope)
        let valid ← (["contains", "unevaluatedItems"].filterMap (Json.member? ms)).mapM fun schema =>
          validIndexes c scope schema vs
        let combined ← (← alternatives c scope ms data).mapM (indexes modern vs fuel scope)
        return direct ++ (far ++ chosen ++ valid ++ combined).flatten
    | v => .error (.noAttribute v.kindName "get")

/-- The names of the members that are valid under a schema. -/
def validNames (scope : Scope) (schema : Json) (data : List (String × Json)) :
    Except Failure (List String) := do
  let valid ← data.filterM fun m => (c.descend scope schema m.2).isClean
  return valid.map Prod.fst

/-- The names that a pattern of a schema occurs in. -/
def patternNames (ms data : List (String × Json)) : Except Failure (List String) := do
  match Json.member? ms "patternProperties" with
  | none => return []
  | some patterns =>
    let patterns ← Shape.items patterns
    let found ← data.filterM fun m => patterns.anyM fun p => patternOccurs p.plain m.1
    return found.map Prod.fst

/-- The schemas that present members ask for. -/
def dependents (ms data : List (String × Json)) : Except Failure (List Json) := do
  match Json.member? ms "dependentSchemas" with
  | none => return []
  | some v =>
    let dependents ← Shape.members v
    return (dependents.filter fun d => data.any (·.1 = d.1)).map Prod.snd

/-- The names of the members that a schema evaluates. -/
def names (data : List (String × Json)) : Nat → Scope → Json → Except Failure (List String)
  | 0, _, _ => .error .endless
  | fuel + 1, scope, schema =>
    match schema with
    | .bool _ => .ok []
    | .obj ms => do
      let far ← (← referred c.library scope ms).mapM fun r => names data fuel r.2 r.1
      let direct := match Json.member? ms "properties" with
        | some (.obj ps) => ps.map Prod.fst
        | _ => []
      let others := ["additionalProperties", "unevaluatedProperties"].filterMap (Json.member? ms)
      let valid ← (others.filter fun v => !(v matches .null)).mapM fun schema =>
        validNames c scope schema data
      let matching ← patternNames ms data
      let asked ← (← dependents ms data).mapM (names data fuel scope)
      let combined ← (← alternatives c scope ms (.obj data)).mapM (names data fuel scope)
      let chosen ← (← branches c scope ms (.obj data)).mapM (names data fuel scope)
      return direct ++ matching ++ (far ++ valid ++ asked ++ combined ++ chosen).flatten
    | v => .error (.noAttribute v.kindName "get")

end DocDesk.Schema.Evaluated
