import DocDesk.Json.Loose
import DocDesk.Table.Row

/-!
# Separated values

Records of fields, each record ended by a carriage return and a line feed.  A field is enclosed in
quotes where it holds the delimiter, a quote or a line break, and quotes inside it are doubled; a
record of one empty field is a pair of quotes, so that it is told from a record without fields.

Main statements: `field_of_plain` and `length_record`.
-/

namespace DocDesk.Table.Csv

/-- How a table is written. -/
structure Options where
  delimiter : Json := .str ","
  header : Bool := true
  flat : Bool := true

/-- Why a table cannot be written. -/
inductive Fault where
  | notOneCharacter
  | withoutLength (kind : String)
  | notText (kind : String)
deriving DecidableEq, Repr

/-- The wording of a fault. -/
def Fault.message : Fault → String
  | .notOneCharacter => "CSV delimiter must be a single character."
  | .withoutLength kind => "object of type '" ++ kind ++ "' has no len()"
  | .notText kind => "\"delimiter\" must be string, not " ++ kind

/-- The delimiter that a value stands for: a text of one character. -/
def delimiterOf (v : Json) : Except Fault Char :=
  match v with
  | .str s =>
    match s.toList with
    | [c] => .ok c
    | _ => .error .notOneCharacter
  | .arr [_] | .obj [_] => .error (.notText v.kindName)
  | .arr _ | .obj _ => .error .notOneCharacter
  | v => .error (.withoutLength v.kindName)

/-! ## Records -/

/-- The end of a record. -/
def lineEnd : List Char := ['\r', '\n']

/-- A field that has to be quoted. -/
def needsQuotes (delimiter : Char) (field : List Char) : Bool :=
  field.any fun c => c = delimiter || c = '"' || c = '\r' || c = '\n'

/-- One character inside quotes. -/
def quotedChar (c : Char) : List Char := if c = '"' then ['"', '"'] else [c]

/-- A field between quotes. -/
def quoted (field : List Char) : List Char := '"' :: field.flatMap quotedChar ++ ['"']

/-- A field as it is written. -/
def field (delimiter : Char) (field : List Char) : List Char :=
  if needsQuotes delimiter field then quoted field else field

/-- A record as it is written, without its end. -/
def record (delimiter : Char) : List (List Char) → List Char
  | [[]] => quoted []
  | fields => Text.join [delimiter] (fields.map (field delimiter))

/-- The text of a value in a field: nothing for null. -/
def cell : Json → List Char
  | .null => []
  | v => v.looseChars

/-- The fields of a row under headers; a missing key has an empty field. -/
def fields (headers : List String) (row : Entries) : List (List Char) :=
  headers.map fun h => ((row.lookup h).map cell).getD []

/-- The records of a document: the headers, if they are wanted, and the rows. -/
def records (v : Json) (header flat : Bool) : List (List (List Char)) :=
  let rs := rows v flat
  let hs := headers rs
  (if header then [hs.map String.toList] else []) ++ rs.map (fields hs)

/-- The text without the line breaks at its end. -/
def withoutLastBreaks (cs : List Char) : List Char :=
  (cs.reverse.dropWhile fun c => c = '\r' || c = '\n').reverse

/-- A document as separated values. -/
def write (options : Options) (v : Json) : Except Fault String := do
  let delimiter ← delimiterOf options.delimiter
  let lines := (records v options.header options.flat).map fun r => record delimiter r ++ lineEnd
  .ok (String.ofList (withoutLastBreaks lines.flatten))

/-- A field that needs no quotes is written as it is. -/
theorem field_of_plain {delimiter : Char} {f : List Char} (h : needsQuotes delimiter f = false) :
    field delimiter f = f := by simp [field, h]

/-- A record has a field for every header. -/
theorem length_record (headers : List String) (row : Entries) :
    (fields headers row).length = headers.length := by simp [fields]

end DocDesk.Table.Csv
