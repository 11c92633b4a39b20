import DocDesk.Schema.Assertion
import DocDesk.Schema.Scope

/-!
# Checking below a keyword

A keyword that applies other schemas does so through a checker: it goes down into a schema, arrives at one
by a reference, or only asks whether a value is valid.  The steps from a value to its parts are added
here.  A false schema stands for itself: its issue is not moved to the part that it was about.

Main definitions: `Checker` and `Task.step`.
-/

namespace DocDesk.Schema

/-- The ways to check a value against a schema below a keyword. -/
structure Checker where
  library : Library
  descend : Scope → Json → Json → Findings
  arrive : Scope → Json × Scope → Json → Findings
  isValid : Scope → Json → Json → Except Failure Bool

/-- The draft that a schema names, or else a given one; fails where a name cannot be looked up. -/
def draftOf (schema : Json) (otherwise : Draft) : Except Failure Draft :=
  match schema with
  | .obj ms =>
    match Json.member? ms "$schema" with
    | none => .ok otherwise
    | some (.str s) => .ok ((Draft.ofUri? s).getD otherwise)
    | some (.arr vs) => .error (.unhashable (Json.arr vs).kindName)
    | some (.obj ms) => .error (.unhashable (Json.obj ms).kindName)
    | some v => if v.isFalsy then .ok otherwise else .error (.noAttribute v.kindName "decode")
  | .bool _ | .str _ | .arr _ => .ok otherwise
  | v => .error (.noMembership v.kindName)

/-- A keyword at its place, with the means to check below it. -/
structure Task where
  checker : Checker
  scope : Scope
  site : Site

namespace Task

/-- Checks the same value against another schema. -/
def here (t : Task) (schema : Json) : Findings := t.checker.descend t.scope schema t.site.data

/-- Checks a part of the value against another schema. -/
def step (t : Task) (s : Step) (schema data : Json) : Findings :=
  match schema with
  | .bool _ => t.checker.descend t.scope schema data
  | _ => (t.checker.descend t.scope schema data).under s

/-- Whether a value is valid under another schema. -/
def isValid (t : Task) (schema data : Json) : Except Failure Bool :=
  t.checker.isValid t.scope schema data

/-- Checks items one by one, counted from a number on. -/
def steps (t : Task) (first : Nat) (schema : Json) (vs : List Json) : Findings :=
  Findings.each (vs.zipIdx first) fun (v, i) => t.step (.index i) schema v

/-- Checks items each against its own schema. -/
def zipped (t : Task) (schemas vs : List Json) : Findings :=
  Findings.each (vs.zip schemas).zipIdx fun ((v, schema), i) => t.step (.index i) schema v

/-- A single issue of this keyword. -/
def issue (t : Task) (message : String) : Findings := .ofList [t.site.issue message]

/-- The value of a keyword beside this one. -/
def beside? (t : Task) (name : String) : Option Json := Json.member? t.site.schema name

/-- The members of the data, if it is an object. -/
def onObject (t : Task) (check : List (String × Json) → Except Failure Findings) : Findings :=
  match t.site.data with
  | .obj ms => .ofExcept (check ms)
  | _ => .done

/-- The items of the data, if it is an array. -/
def onArray (t : Task) (check : List Json → Except Failure Findings) : Findings :=
  match t.site.data with
  | .arr vs => .ofExcept (check vs)
  | _ => .done

end Task

end DocDesk.Schema
