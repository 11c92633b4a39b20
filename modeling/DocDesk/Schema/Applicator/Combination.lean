import DocDesk.Schema.Checker

/-!
# Combinations, conditions and references

Keywords that hand the value itself on to other schemas.  Main definitions: `anyOf`,
`oneOf`, `notValid`, `condition` and `reference`.
-/

namespace DocDesk.Schema.Task

/-! ## Combinations -/

/-- The first schema that a value has no issue under, and the schemas after it. -/
def firstValid (t : Task) : List Json → Except Failure (Option (Json × List Json))
  | [] => .ok none
  | schema :: schemas => do
    match ← (t.here schema).collect with
    | [] => return some (schema, schemas)
    | _ => firstValid t schemas

/-- The issue of a value that no alternative accepts. -/
def noneValid (t : Task) : Findings :=
  t.issue (t.site.about " is not valid under any of the given schemas")

/-- At least one schema accepts the value. -/
def anyOf (t : Task) : Findings := .ofExcept do
  match ← firstValid t (← Shape.items t.site.argument) with
  | some _ => return .done
  | none => return noneValid t

/-- Exactly one schema accepts the value. -/
def oneOf (t : Task) : Findings := .ofExcept do
  match ← firstValid t (← Shape.items t.site.argument) with
  | none => return noneValid t
  | some (first, others) =>
    let also ← others.filterM fun schema => t.isValid schema t.site.data
    if also.isEmpty then return .done
    return t.issue (t.site.about
      (" is valid under each of " ++ Text.joined ", " ((also ++ [first]).map Json.inspect)))

/-- The schema does not accept the value. -/
def notValid (t : Task) : Findings := .ofExcept do
  if ← t.isValid t.site.argument t.site.data then
    return t.issue (t.site.about (" should not be valid under " ++ t.site.argument.inspect))
  else return .done

/-- One schema or another, as a third one accepts the value or not. -/
def condition (t : Task) : Findings := .ofExcept do
  let branch := if ← t.isValid t.site.argument t.site.data then "then" else "else"
  match t.beside? branch with
  | some schema => return t.here schema
  | none => return .done

/-! ## References -/

/-- A reference by name. -/
def reference (t : Task) : Findings := .ofExcept do
  match t.site.argument with
  | .str r =>
    let found ← t.scope.lookup t.checker.library r true
    return t.checker.arrive t.scope found t.site.data
  | v => throw (.noAttribute v.kindName "startswith")

/-- A reference to the outermost schema that allows it. -/
def recursive (t : Task) : Findings := .ofExcept do
  let found ← t.scope.lookupRecursive t.checker.library false
  return t.checker.arrive t.scope found t.site.data

end DocDesk.Schema.Task
