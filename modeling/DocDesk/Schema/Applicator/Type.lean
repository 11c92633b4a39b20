import DocDesk.Schema.Checker

/-!
# Types that may be schemas

In draft 3 a type may be given by a schema, types may be forbidden, and a schema may extend others.  Main
definitions: `typeOrSchema` and `disallow`.
-/

namespace DocDesk.Schema.Task

/-! ## Draft 3 -/

/-- One schema, or several, that the value has to satisfy as well. -/
def extending (t : Task) : Findings :=
  match t.site.argument with
  | .obj ms => t.here (.obj ms)
  | v => .ofExcept do return .each (← Shape.items v) t.here

/-- Whether a value is of one of several types, which may be schemas. -/
def isOfAny (t : Task) : List Json → Except Failure Bool
  | [] => .ok false
  | type :: types => do
    match type with
    | .str "any" => return true
    | .obj ms =>
      match ← (t.here (.obj ms)).collect with
      | [] => return true
      | _ => isOfAny t types
    | type =>
      if ← Assertion.isOfType t.scope.draft (.obj t.site.schema) t.site.data type then return true
      isOfAny t types

/-- A schema among types is called by its name, if it has one. -/
def typeLabel (type : Json) : Json :=
  match type with
  | .obj ms => (Json.member? ms "name").getD type
  | v => v

/-- The value is of one of several types, which may be schemas. -/
def typeOrSchema (t : Task) : Findings := .ofExcept do
  let types ← Shape.oneOrItems t.site.argument
  if ← isOfAny t types then return .done
  return t.issue (t.site.about (Assertion.typeNames (types.map typeLabel)))

/-- The value is of none of several types, which may be schemas. -/
def disallow (t : Task) : Findings := .ofExcept do
  let types ← Shape.oneOrItems t.site.argument
  return .each types fun type => .ofExcept do
    if ← t.isValid (.obj [("type", .arr [type])]) t.site.data then
      return t.issue (type.inspect ++ " is disallowed for " ++ t.site.data.inspect)
    else return .done

end DocDesk.Schema.Task
