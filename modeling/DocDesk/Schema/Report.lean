import DocDesk.Json.Reader
import DocDesk.Schema.Validation

/-!
# Reports

The issues of a document as they are shown: with the pointer to the value, the keyword and what the
keyword asks for.  For a missing member that is its name, and for members that must not be there their
names.

Main statements: `rows_length` and `valid_iff`.
-/

namespace DocDesk.Schema

/-- An issue as it is shown. -/
structure Entry where
  pointer : String
  message : String
  keyword : String
  params : String × Json
  data : Json

/-- The document root in place of an empty pointer. -/
def Entry.place (e : Entry) : String := if e.pointer = "" then "root" else e.pointer

/-- The entries of a report, in the order of the issues. -/
structure Report where
  entries : List Entry

namespace Report

/-- A report without entries. -/
def valid (r : Report) : Bool := r.entries.isEmpty

/-- The place, the keyword and the message of every entry. -/
def rows (r : Report) : List (List String) :=
  r.entries.map fun e => [e.place, e.keyword, e.message]

/-- A report has a row for each entry. -/
theorem rows_length (r : Report) : r.rows.length = r.entries.length := by simp [rows]

/-- A report is one of a valid document exactly if it has no rows. -/
theorem valid_iff (r : Report) : r.valid = true ↔ r.rows = [] := by
  cases r with
  | mk es => cases es <;> simp [valid, rows]

end Report

/-! ## Parameters -/

/-- Whether a text occurs in another one. -/
def occursIn (part cs : List Char) : Bool :=
  (Text.after? part cs).isSome || match cs with
    | [] => false
    | _ :: cs => occursIn part cs

/-- The first of the missing names that a message shows, or all of them. -/
def missingParam (message : String) (missing : List Json) : Json :=
  match missing.find? fun n => occursIn n.inspect.toList message.toList with
  | some .null | none => .arr missing
  | some n => n

/-- A single name by itself, or several. -/
def oneOrMany : List Json → Json
  | [v] => v
  | vs => .arr vs

/-- What is shown as the parameter of an issue. -/
def Issue.params (i : Issue) : Except Failure (String × Json) :=
  match i.keyword, i.data with
  | some "required", .obj ms => do
    let missing ← Assertion.missingOf ms (← Shape.items i.argument)
    return ("missingProperty", missingParam i.message missing)
  | some "additionalProperties", .obj ms => do
    let known ← Shape.items ((Json.member? (membersOf i.schema) "properties").getD (.obj []))
    let extra := (ms.map fun m => Json.str m.1).filter fun n => !known.any (Json.same n)
    return ("additionalProperty", oneOrMany extra)
  | keyword, _ => return (keyword.getD "None", i.argument)

/-- An issue as it is shown. -/
def Issue.entry (i : Issue) : Except Failure Entry := do
  let params ← i.params
  return ⟨Pointer.text i.path, i.message, i.keyword.getD "None", params, i.data⟩

/-- The entries of findings, one after the other. -/
def Findings.entries : Findings → Except Failure (List Entry)
  | .done => .ok []
  | .broken f => .error f
  | .found i rest => do
    let e ← i.entry
    let es ← (rest ()).entries
    return e :: es

/-! ## Documents and texts -/

/-- The report of a document under a schema. -/
def report (schema data : Json) : Except Refusal Report := do
  let found ← validate schema data
  let entries ← found.entries.mapError .failed
  return ⟨entries⟩

/-- Why two texts give no report. -/
inductive Fault where
  | unreadable (e : Json.ParseError)
  | refused (r : Refusal)

/-- The report of a document text under a schema text. -/
def reportOfTexts (data schema : Option String) : Except Fault Report := do
  let data ← (Json.parse? data "JSON data").mapError .unreadable
  let schema ← (Json.parse? schema "JSON schema").mapError .unreadable
  (report schema data).mapError .refused

end DocDesk.Schema
