import DocDesk.Schema.Applicator

/-!
# Validation

A value is checked against a schema keyword by keyword, in the order in which the schema has them.  In
older drafts a reference hides the keywords beside it.  A schema is itself checked against the schema of
its draft first, and is refused for the first issue found there.  Schemas that refer to each other
without end are stopped at a fixed nesting.

Main definitions: `walk` and `validate`.  Main statement: `validate_notASchema`.
-/

namespace DocDesk.Schema

/-- The issue of a value under the schema that accepts nothing. -/
def forbidden (data : Json) : Issue :=
  ⟨[], "False schema does not allow " ++ data.inspect, none, .null, .bool false, data, []⟩

/-- The keywords of a schema that count: in older drafts only a reference, if there is one. -/
def applicable (d : Draft) (schema : Json) : Except Failure (List (String × Json)) :=
  match schema with
  | .obj ms =>
    match Json.member? ms "$ref" with
    | some .null | none => .ok ms
    | some r => .ok (if d.isOld then [("$ref", r)] else ms)
  | v => .error (.noAttribute v.kindName (if d.isOld then "get" else "items"))

/-- The members of a schema. -/
def membersOf : Json → List (String × Json)
  | .obj ms => ms
  | _ => []

/-- What a keyword finds at its place; unknown keywords find nothing. -/
def keywordFindings (t : Task) : Findings :=
  match t.scope.draft.rule? t.site.keyword with
  | none => .done
  | some (.assertion a) => .ofExcept ((a.issues t.scope.draft t.site).map .ofList)
  | some (.applicator a) => a.findings t

/-- The ways to check below a keyword, given the way to check a value against a schema whose draft is
known. -/
def checkerOf (l : Library) (walk : Draft → Scope → Json → Json → Findings) : Checker where
  library := l
  descend s schema data := .ofExcept do
    let inner := s.enter ⟨s.draft, schema⟩
    return walk s.draft { inner with draft := ← draftOf schema s.draft } schema data
  arrive s found data := .ofExcept do
    return walk s.draft { found.2 with draft := ← draftOf found.1 s.draft } found.1 data
  isValid s schema data := do
    let d ← draftOf schema s.draft
    (walk d { s with draft := d } schema data).isClean

/-- What a schema finds in a value; the first draft says which keywords count. -/
def walk (l : Library) : Nat → Draft → Scope → Json → Json → Findings
  | 0, _, _, _, _ => .broken .endless
  | _ + 1, _, _, .bool true, _ => .done
  | _ + 1, _, _, .bool false, data => .found (forbidden data) fun _ => .done
  | fuel + 1, d, s, schema, data => .ofExcept do
    let keywords ← applicable d schema
    return .each keywords fun (keyword, argument) => Findings.through keyword <|
      keywordFindings ⟨checkerOf l (walk l fuel), s, ⟨keyword, argument, membersOf schema, data⟩⟩

/-- The greatest nesting of schemas that are checked within each other: a level takes two calls. -/
def nestingLimit : Nat := Nesting.levels 20 2

/-- What a resource finds in a value. -/
def findings (r : Resource) (data : Json) : Findings :=
  walk (.ofRoot r) nestingLimit r.draft (.ofRoot r) r.contents data

/-! ## Checked schemas -/

/-- Why a document was not validated: the schema is no schema, or the check broke off. -/
inductive Refusal where
  | notASchema
  | invalid (i : Issue)
  | failed (f : Failure)

/-- The wording of a schema that is refused. -/
def Refusal.message? : Refusal → Option String
  | .notASchema => some "Schema must be a JSON object or boolean."
  | .invalid i => some ("Invalid schema: " ++ i.message)
  | .failed _ => none

/-- Checks a schema against the schema of its draft. -/
def checkSchema (d : Draft) (schema : Json) : Except Refusal Unit :=
  match findings d.metaschema schema with
  | .done => .ok ()
  | .broken f => .error (.failed f)
  | .found i _ => .error (.invalid i)

/-- An object or a boolean. -/
def isSchema : Json → Bool
  | .obj _ | .bool _ => true
  | _ => false

/-- What a schema finds in a document, once the schema is checked. -/
def validate (schema data : Json) : Except Refusal Findings := do
  if !isSchema schema then throw .notASchema
  let d ← (draftOf schema .draft7).mapError .failed
  checkSchema d schema
  return findings ⟨d, schema⟩ data

/-- What is neither an object nor a boolean is no schema. -/
theorem validate_notASchema {schema : Json} (h : isSchema schema = false) (data : Json) :
    validate schema data = .error .notASchema := by
  simp [validate, h, bind, Except.bind, throw, throwThe, MonadExceptOf.throw]

end DocDesk.Schema
