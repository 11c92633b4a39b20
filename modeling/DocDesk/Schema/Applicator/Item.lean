import DocDesk.Schema.Checker

/-!
# Items

Keywords that hand the items of an array on to other schemas.  Main definitions: `items`,
`prefixItems`, `contains` and `containsCounted`.
-/

namespace DocDesk.Schema.Task

/-! ## Items -/

/-- One schema for all items, or one for each of the first ones. -/
def items (t : Task) : Findings := onArray t fun vs =>
  match t.site.argument with
  | .arr schemas => return t.zipped schemas vs
  | schema => return t.steps 0 schema vs

/-- One schema, which is an object, for all items, or one for each of the first ones. -/
def itemsOfObject (t : Task) : Findings := onArray t fun vs =>
  match t.site.argument with
  | .obj ms => return t.steps 0 (.obj ms) vs
  | schemas => do return t.zipped (← Shape.items schemas) vs

/-- What is said about items that must not be there. -/
def surplusMessage (count : Nat) (rest : List Json) : String :=
  let shown := match rest with
    | [v] => v
    | vs => .arr vs
  "Expected at most " ++ toString count ++ (if count = 1 then " item" else " items") ++ " but found "
    ++ toString rest.length ++ " extra: " ++ shown.inspect

/-- One schema for all items behind those that have their own. -/
def itemsAfterPrefix (t : Task) : Findings := onArray t fun vs => do
  let count ← Shape.length ((t.beside? "prefixItems").getD (.arr []))
  if vs.length ≤ count then return .done
  match t.site.argument with
  | .bool false => return t.issue (surplusMessage count (vs.drop count))
  | schema => return t.steps count schema (vs.drop count)

/-- A schema for each of the first items. -/
def prefixItems (t : Task) : Findings := onArray t fun vs => do
  return t.zipped (← Shape.items t.site.argument) vs

/-- One schema for all items behind those that have their own, or no such items. -/
def additionalItems (t : Task) : Findings := onArray t fun vs => do
  let own := t.beside? "items"
  match own.getD (.obj []) with
  | .obj _ => return .done
  | schemas =>
    let count ← Shape.length schemas
    match t.site.argument with
    | .obj ms => return t.steps count (.obj ms) (vs.drop count)
    | v =>
      if v.isFalsy && count < vs.length then
        return t.issue
          ("Additional items are not allowed (" ++ nameList (vs.drop count) ++ " unexpected)")
      else return .done

/-- At least one item is valid. -/
def contains (t : Task) : Findings := onArray t fun vs => do
  if ← vs.anyM (t.isValid t.site.argument) then return .done
  return t.issue ("None of " ++ t.site.data.inspect ++ " are valid under the given schema")

/-- The number of valid items, or nothing as soon as there are more than allowed. -/
def countValid (t : Task) (most : Json) : Nat → List Json → Except Failure (Option Nat)
  | n, [] => .ok (some n)
  | n, v :: vs => do
    if ← t.isValid t.site.argument v then
      if (← Shape.compare ">" (.int (n + 1 : Nat)) most) = some .gt then return none
      countValid t most (n + 1) vs
    else countValid t most n vs

/-- The number of valid items lies between two bounds. -/
def containsCounted (t : Task) : Findings := onArray t fun vs => do
  let least := (t.beside? "minContains").getD (.int 1)
  let most := (t.beside? "maxContains").getD (.int vs.length)
  let bound (keyword : String) (argument : Json) (message : String) : Findings :=
    .ofList [{ t.site.issue message with keyword := some keyword, argument }]
  match ← countValid t most 0 vs with
  | none =>
    return bound "maxContains" most ("Too many items match the given schema (expected at most "
      ++ most.plain ++ ")")
  | some n =>
    if (← Shape.compare "<" (.int n) least) ≠ some .lt then return .done
    if n = 0 then
      return t.issue (t.site.about " does not contain items matching the given schema")
    return bound "minContains" least ("Too few items match the given schema (expected at least "
      ++ least.plain ++ " but only " ++ toString n ++ " matched)")

end DocDesk.Schema.Task
