import DocDesk.Json.Reader
import DocDesk.Json.Writer
import DocDesk.Table.Csv
import DocDesk.Text.LetterCase
import DocDesk.Xml
import DocDesk.Yaml.Reader
import DocDesk.Yaml.Writer

/-!
# Conversions

The four conversions between formats, with the options of each.

Main statements: `ofName?_name` and `ofLabel?_label`.
-/

namespace DocDesk

/-- The conversions. -/
inductive Conversion where
  | jsonToYaml
  | yamlToJson
  | jsonToXml
  | jsonToCsv
deriving DecidableEq, Repr

namespace Conversion

/-- All conversions. -/
def all : List Conversion := [.jsonToYaml, .yamlToJson, .jsonToXml, .jsonToCsv]

/-- The format that is read, and the one that is written. -/
def formats : Conversion → String × String
  | .jsonToYaml => ("json", "yaml")
  | .yamlToJson => ("yaml", "json")
  | .jsonToXml => ("json", "xml")
  | .jsonToCsv => ("json", "csv")

/-- The name of a conversion. -/
def name (c : Conversion) : String := c.formats.1 ++ "_to_" ++ c.formats.2

/-- The label of a conversion. -/
def label (c : Conversion) : String := Text.upper c.formats.1 ++ " → " ++ Text.upper c.formats.2

/-- The extension of files that hold what a conversion writes. -/
def extension (c : Conversion) : String := c.formats.2

/-- The conversion with a name. -/
def ofName? (s : String) : Option Conversion := all.find? fun c => c.name = s

/-- The conversion with a label. -/
def ofLabel? (s : String) : Option Conversion := all.find? fun c => c.label = s

/-- Something that names no conversion. -/
structure Unknown where
  named : Json

/-- The wording of the refusal. -/
def Unknown.message (e : Unknown) : String := e.named.inspect ++ " is not a valid ConversionType"

/-- The conversion that a value names. -/
def ofValue (v : Json) : Except Unknown Conversion :=
  match v with
  | .str s =>
    match ofName? s with
    | some c => .ok c
    | none => .error ⟨v⟩
  | v => .error ⟨v⟩

/-- Why a choice picks no conversion. -/
inductive ChoiceFault where
  | unknown (e : Unknown)
  /-- A value that cannot be looked up. -/
  | unusable (kind : String)

/-- The wording of a fault. -/
def ChoiceFault.message : ChoiceFault → String
  | .unknown e => e.message
  | .unusable kind => "unhashable type: '" ++ kind ++ "'"

/-- The conversion that a choice picks, by label or by name. -/
def ofChoice (v : Json) : Except ChoiceFault Conversion :=
  match v with
  | .str s =>
    match ofLabel? s <|> ofName? s with
    | some c => .ok c
    | none => .error (.unknown ⟨v⟩)
  | .arr _ | .obj _ => .error (.unusable v.kindName)
  | v => .error (.unknown ⟨v⟩)

/-- How a conversion writes.  Without an indentation JSON text stands on one line. -/
structure Options where
  indent : Option Int := some 2
  xml : Xml.Options := {}
  csv : Table.Csv.Options := {}

/-- Why a text cannot be converted. -/
inductive Fault where
  | nothing
  | json (e : Json.ParseError)
  | yaml (text : List Char) (f : Yaml.Fault)
  | csv (f : Table.Csv.Fault)
  | xml (f : Xml.IndentFault)
  | nesting (f : Nesting.Exceeded)

/-- The wording of a fault. -/
def Fault.message : Fault → String
  | .nothing => "Please enter content to convert."
  | .json e => e.message
  | .yaml _ (.value f) => f.message
  | .yaml text f => "Invalid YAML: " ++ f.message text
  | .csv f => f.message
  | .xml f => f.message
  | .nesting f => f.message

/-- The layout of JSON text. -/
def Options.layout (options : Options) : Json.Layout := (options.indent.map .ofWidth).getD .line

/-- A YAML text as JSON text. -/
def yamlText (layout : Json.Layout) (s : String) : Except Fault String :=
  match Yaml.read s with
  | .ok v => .ok (v.render layout)
  | .error f => .error (.yaml s.toList f)

/-- A JSON document in the format of a conversion that starts from JSON. -/
def write (c : Conversion) (options : Options) (v : Json) : Except Fault String :=
  match c with
  | .jsonToXml => (Xml.write options.xml v).mapError .xml
  | .jsonToCsv => (Table.Csv.write options.csv v).mapError .csv
  | _ =>
    if Yaml.Writer.depthLimit < v.depth then .error (.nesting {})
    else .ok (Yaml.write (options.indent.getD 2) v)

/-- Converts a text. -/
def run (c : Conversion) (options : Options) (text : Option String) : Except Fault String :=
  let s := text.getD ""
  if Text.isBlankText s then .error .nothing
  else if c = .yamlToJson then yamlText options.layout s
  else match Json.parse s with
    | .error e => .error (.json e)
    | .ok v => c.write options v

/-- YAML text is written of a document that is not nested too deep. -/
theorem write_jsonToYaml (options : Options) (v : Json) :
    write .jsonToYaml options v =
      if Yaml.Writer.depthLimit < v.depth then .error (.nesting {})
      else .ok (Yaml.write (options.indent.getD 2) v) := rfl

/-- A conversion is found under its name. -/
theorem ofName?_name (c : Conversion) : ofName? c.name = some c := by
  cases c <;> decide +kernel

/-- A conversion is found under its label. -/
theorem ofLabel?_label (c : Conversion) : ofLabel? c.label = some c := by
  cases c <;> decide +kernel

end Conversion

end DocDesk
