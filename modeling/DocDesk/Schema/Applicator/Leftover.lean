import DocDesk.Nesting
import DocDesk.Schema.Evaluated

/-!
# Unevaluated parts

Keywords for the parts of a value that nothing else in a schema has a say about.  Main definitions:
`unevaluatedItems` and `unevaluatedProperties`.
-/

namespace DocDesk.Schema.Task

/-! ## Unevaluated parts -/

/-- The nesting of schemas for one value that is looked through: a level takes one call. -/
def evaluationLimit : Nat := Nesting.levels 20 1

/-- Items that nothing else evaluates must not be there. -/
def unevaluatedItems (t : Task) : Findings := onArray t fun vs => do
  let modern := t.scope.draft = .draft2020
  let known ← Evaluated.indexes t.checker modern vs evaluationLimit t.scope (.obj t.site.schema)
  let rest := (vs.zipIdx.filter fun (_, i) => i ∉ known).map Prod.fst
  if rest.isEmpty then return .done
  return t.issue ("Unevaluated items are not allowed (" ++ nameList rest ++ " unexpected)")

/-- Members that nothing else evaluates have a schema; a name is told once for every issue. -/
def unevaluatedProperties (t : Task) : Findings := onObject t fun ms => do
  let known ← Evaluated.names t.checker ms evaluationLimit t.scope (.obj t.site.schema)
  let told ← (ms.filter fun m => m.1 ∉ known).mapM fun (name, v) => do
    let issues ← (t.checker.descend t.scope t.site.argument v).collect
    return issues.map fun _ => name
  let names := told.flatten
  if names.isEmpty then return .done
  match t.site.argument with
  | .bool false =>
    return t.issue
      ("Unevaluated properties are not allowed (" ++ nameList (sortedNames names) ++ " unexpected)")
  | _ =>
    return t.issue ("Unevaluated properties are not valid under the given schema ("
      ++ nameList (names.map .str) ++ " unexpected)")

end DocDesk.Schema.Task
