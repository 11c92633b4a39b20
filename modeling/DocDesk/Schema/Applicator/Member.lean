import DocDesk.Schema.Checker

/-!
# Members and dependencies

Keywords that hand the members of an object on to other schemas, and keywords that let one member ask for
others.  Main definitions: `properties`, `additionalProperties` and `dependencies`.
-/

namespace DocDesk.Schema.Task

/-! ## Members -/

/-- The value of every named member has its own schema. -/
def properties (t : Task) : Findings := onObject t fun ms => do
  let schemas ← Shape.members t.site.argument
  return .each schemas fun (name, schema) =>
    match Json.member? ms name with
    | some v => t.step (.name name) schema v
    | none => .done

/-- The value of every named member has its own schema, which also says whether the member must be
there.  That it is missing is told at the place where it would be. -/
def propertiesWithRequired (t : Task) : Findings := onObject t fun ms => do
  let schemas ← Shape.members t.site.argument
  return .each schemas fun (name, schema) =>
    match Json.member? ms name, schema with
    | some v, _ => t.step (.name name) schema v
    | none, .obj keywords =>
      match Json.member? keywords "required" with
      | some flag =>
        if flag.isFalsy then .done
        else
          let i := t.site.issue (Text.quoted name ++ " is a required property")
          .ofList [{ i with path := [.name name], keyword := some "required", argument := flag }]
      | none => .done
    | none, v => .broken (.noAttribute v.kindName "get")

/-- The members whose names a pattern occurs in have its schema. -/
def patternProperties (t : Task) : Findings := onObject t fun ms => do
  let schemas ← Shape.members t.site.argument
  return .each schemas fun (pattern, schema) => .each ms fun (name, v) => .ofExcept do
    if ← patternOccurs pattern name then return t.step (.name name) schema v else return .done

/-- The names of members are themselves checked. -/
def propertyNames (t : Task) : Findings := onObject t fun ms =>
  return .each ms fun (name, _) => t.checker.descend t.scope t.site.argument (.str name)

/-- The patterns of a schema as one choice; the empty text if there are none. -/
def joinedPatterns (schema : List (String × Json)) : Except Failure String :=
  match Json.member? schema "patternProperties" with
  | none => .ok ""
  | some v => do return Text.joined "|" ((← Shape.items v).map Json.plain)

/-- Whether a member is neither named nor matched by a pattern. -/
def isExtra (schema : List (String × Json)) (patterns name : String) : Except Failure Bool := do
  let known ← Shape.hasName ((Json.member? schema "properties").getD (.obj [])) name
  if known then return false
  if patterns = "" then return true
  return !(← patternOccurs patterns name)

/-- The names of the members that are neither named nor matched by a pattern. -/
def extraNames (schema : List (String × Json)) (patterns : String) :
    List (String × Json) → Except Failure (List String)
  | [] => .ok []
  | (name, _) :: ms => do
    let extra ← isExtra schema patterns name
    let names ← extraNames schema patterns ms
    return if extra then name :: names else names

/-- What is said about members that must not be there. -/
def extraMessage (schema : List (String × Json)) (extra : List String) : String :=
  let names := sortedNames extra
  match Json.member? schema "patternProperties" with
  | some patterns =>
    let patterns := match patterns with
      | .obj ms => sortedNames (ms.map Prod.fst)
      | _ => []
    Text.joined ", " (names.map Json.inspect) ++ (if extra.length = 1 then " does" else " do")
      ++ " not match any of the regexes: " ++ Text.joined ", " (patterns.map Json.inspect)
  | none => "Additional properties are not allowed (" ++ nameList names ++ " unexpected)"

/-- Members that are neither named nor matched by a pattern have a schema, or must not be there. -/
def additionalProperties (t : Task) : Findings := onObject t fun ms => do
  let extra ← extraNames t.site.schema (← joinedPatterns t.site.schema) ms
  match t.site.argument with
  | .obj _ =>
    return .each (ms.filter fun m => m.1 ∈ extra) fun (name, v) =>
      t.step (.name name) t.site.argument v
  | v =>
    if v.isFalsy && !extra.isEmpty then return t.issue (extraMessage t.site.schema extra)
    else return .done

/-! ## Dependencies -/

/-- The names that a present member asks for and that are missing. -/
def missingNames (t : Task) (property : String) (names : Json) : Findings :=
  .ofExcept ((Assertion.missingIssues t.site names (Assertion.dependencyWords property)).map .ofList)

/-- What every present member asks for, as told by a function of its name and of what is asked. -/
def onPresent (t : Task) (ask : String → Json → Findings) : Findings := onObject t fun ms => do
  let dependencies ← Shape.members t.site.argument
  return .each dependencies fun (name, asked) =>
    if ms.any (·.1 = name) then ask name asked else .done

/-- A present member asks for other members, or for a schema of the whole value. -/
def dependencies (t : Task) : Findings := onPresent t fun name asked =>
  match asked with
  | .arr _ => missingNames t name asked
  | schema => t.here schema

/-- A present member asks for one or several other members, or for a schema of the whole value. -/
def dependenciesOrName (t : Task) : Findings := onPresent t fun name asked =>
  match asked with
  | .obj _ => t.here asked
  | .str s => missingNames t name (.arr [.str s])
  | _ => missingNames t name asked

/-- A present member asks for a schema of the whole value. -/
def dependentSchemas (t : Task) : Findings := onPresent t fun _ schema => t.here schema

end DocDesk.Schema.Task
