import DocDesk.Sample
import DocDesk.Schema.Report
import DocDesk.Settings
import DocDesk.Text.Blank

/-!
# The validation panel

Two texts, a document and a schema, become a status, the rows of a table and the entries in full.  Texts
that cannot be read and schemas that are refused are told in the status; a check that breaks off is not.

Main definition: `runValidation`.  Main statement: `ofReport_rows_length`.
-/

namespace DocDesk.Panel

open Schema

/-- What the panel shows. -/
structure ValidateReply where
  status : String
  rows : List (List String)
  details : Option (List Entry)

namespace ValidateReply

/-- A status with nothing below it. -/
def plain (status : String) : ValidateReply := ⟨status, [], none⟩

/-- What is shown of a report. -/
def ofReport (r : Report) : ValidateReply :=
  if r.valid then plain "JSON data is valid against the schema."
  else
    ⟨"JSON data is invalid: " ++ toString r.entries.length ++ " error(s) found.", r.rows,
      some r.entries⟩

end ValidateReply

/-- Nothing, or blanks alone. -/
def isMissing (text : Option String) : Bool := text.all Text.isBlankText

/-- Validates a document text against a schema text; only a check that breaks off gives no reply. -/
def runValidation (data schema : Option String) : Except Failure ValidateReply :=
  if isMissing data || isMissing schema then
    .ok (.plain "Please enter both JSON data and a JSON schema.")
  else
    match reportOfTexts data schema with
    | .ok r => .ok (.ofReport r)
    | .error (.unreadable e) => .ok (.plain ("Error: " ++ e.message))
    | .error (.refused (.failed f)) => .error f
    | .error (.refused r) => .ok (.plain ("Error: " ++ r.message?.getD ""))

/-- The sample document and the sample schema, with the message that they are loaded. -/
def schemaTemplate (settings : Settings) : String × String × String :=
  let layout := Json.Layout.ofWidth settings.defaultIndent
  (Sample.schemaData.render layout, Sample.schema.render layout, "Sample schema and data loaded.")

/-- A reply has a row for each entry of the report. -/
theorem ofReport_rows_length (r : Report) :
    (ValidateReply.ofReport r).rows.length = r.entries.length := by
  unfold ValidateReply.ofReport
  split
  · rename_i h
    have : r.entries = [] := by simpa [Report.valid] using h
    simp [ValidateReply.plain, this]
  · exact r.rows_length

end DocDesk.Panel
