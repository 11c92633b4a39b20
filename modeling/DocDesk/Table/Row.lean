import DocDesk.Json.Writer
import DocDesk.Table.Flatten

/-!
# Rows of a table

A document becomes one flat row, or a row for every item of an array.  Nested values are rendered to
fit a cell.  The headers are the keys of all rows in the order in which they first appear.

Main statement: `headers_nodup`.
-/

namespace DocDesk.Table

/-- An item as it stands in a cell of several items: nothing for null. -/
def cellItem : Json → List Char
  | .null => []
  | v => v.plain.toList

/-- A value that a cell can hold: scalars as they are, an array of scalars joined by commas, any
other container as JSON text. -/
def renderCell (v : Json) : Json :=
  match v with
  | .arr items =>
    if items.all Json.isScalar then .str (String.ofList (Text.join [',', ' '] (items.map cellItem)))
    else .str v.compact
  | .obj _ => .str v.compact
  | v => v

/-- The row of a record; a record that is no object has the single column `value`. -/
def row (record : Json) : Entries :=
  match record with
  | .obj members => members.map fun m => (m.1, renderCell m.2)
  | v => [("value", renderCell v)]

/-- The rows of a document. -/
def rows (v : Json) (flat : Bool) : List Entries :=
  if flat then [row (.obj (flatten v))]
  else match v with
    | .arr items => items.map row
    | v => [row v]

/-- Adds the texts that are not there yet at the end. -/
def addNew (seen : List String) (keys : List String) : List String :=
  keys.foldl (fun acc k => if k ∈ acc then acc else acc ++ [k]) seen

/-- The keys of all rows in the order in which they first appear. -/
def headers (rows : List Entries) : List String := addNew [] (rows.flatMap fun r => r.map Prod.fst)

/-- Adding the new ones of some keys keeps all distinct. -/
theorem addNew_nodup {seen : List String} (h : seen.Nodup) (keys : List String) :
    (addNew seen keys).Nodup := by
  induction keys generalizing seen with
  | nil => exact h
  | cons k ks ih =>
    simp only [addNew, List.foldl_cons]
    split
    · exact ih h
    · next hk => exact ih (List.nodup_append.2 ⟨h, by simp, by simp; exact fun a ha e => hk (e ▸ ha)⟩)

/-- No header comes twice. -/
theorem headers_nodup (rows : List Entries) : (headers rows).Nodup := addNew_nodup List.nodup_nil _

end DocDesk.Table
