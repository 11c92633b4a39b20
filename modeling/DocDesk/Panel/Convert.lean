import DocDesk.Conversion
import DocDesk.File
import DocDesk.Json.Whole

/-!
# The conversion panel

A form of loosely typed fields becomes the options of a conversion.  Failures that are about the
input are told as a message; others are passed on.  What was written can be exported to a file below a
folder, under the extension of the conversion.

Main definitions: `convert` and `exportOutput`.  Main statement: `fileName_extension`.
-/

namespace DocDesk.Panel

/-- The fields of the form; each may hold any value. -/
structure ConvertForm where
  indent : Json := .str "2"
  xmlPretty : Json := .bool true
  xmlIndent : Json := .str "  "
  xmlHeader : Json := .bool true
  csvDelimiter : Json := .str ","
  csvHeader : Json := .bool true
  csvFlat : Json := .bool true

namespace ConvertForm

/-- A delimiter field: nothing stands for a comma, and `\t` for a tab. -/
def delimiter (v : Json) : Json :=
  if v.isFalsy then .str ","
  else match v with
    | .str "\\t" => .str "\t"
    | v => v

/-- The indentation field; nothing stands for two. -/
def width (v : Json) : Except Json.WholeFault Int :=
  if v.isFalsy then .ok 2 else v.toWhole

/-- The options that a form asks for. -/
def options (f : ConvertForm) : Except Json.WholeFault Conversion.Options := do
  let indent ← width f.indent
  let xmlIndent : Json := match f.xmlIndent with
    | .null => .str "  "
    | v => v
  .ok ⟨some indent, ⟨!f.xmlPretty.isFalsy, xmlIndent, !f.xmlHeader.isFalsy⟩,
    ⟨delimiter f.csvDelimiter, !f.csvHeader.isFalsy, !f.csvFlat.isFalsy⟩⟩

end ConvertForm

/-- Why the panel converted nothing. -/
inductive ConvertFault where
  | choice (f : Conversion.ChoiceFault)
  | option (f : Json.WholeFault)
  | conversion (f : Conversion.Fault)

/-- The wording of a fault. -/
def ConvertFault.message : ConvertFault → String
  | .choice f => f.message
  | .option f => f.message
  | .conversion f => f.message

end DocDesk.Panel

namespace DocDesk

/-- A fault of a YAML value that is about what the text says. -/
def Yaml.ValueFault.isAboutInput : Yaml.ValueFault → Bool
  | .emptyNumeral | .notBool _ | .notTimestamp | .timestampOfMapping | .keyKind _ | .tooDeep => false
  | .codePoint n => n < 2 ^ 31
  | _ => true

/-- A fault of a conversion that is about its input. -/
def Conversion.Fault.isAboutInput : Conversion.Fault → Bool
  | .yaml _ (.value f) => f.isAboutInput
  | .csv .notOneCharacter => true
  | .csv _ => false
  | .xml _ => false
  | .nesting _ => false
  | _ => true

namespace Panel

/-- A fault that the panel tells as a message. -/
def ConvertFault.isTold : ConvertFault → Bool
  | .choice (.unknown _) => true
  | .choice (.unusable _) => false
  | .option (.text _) => true
  | .option .notANumber => true
  | .option _ => false
  | .conversion f => f.isAboutInput

/-- The output and the message of the panel. -/
structure ConvertReply where
  output : String
  message : String
deriving DecidableEq, Repr

/-- Converts a text as a form asks. -/
def convertForm (text : Option String) (label : Json) (form : ConvertForm) :
    Except ConvertFault ConvertReply := do
  let c ← (Conversion.ofChoice label).mapError .choice
  let options ← form.options.mapError .option
  let output ← (c.run options text).mapError .conversion
  .ok ⟨output, "Converted " ++ c.label ++ "."⟩

/-- Converts a text as a form asks, and tells what is wrong with the input. -/
def convert (text : Option String) (label : Json) (form : ConvertForm) :
    Except ConvertFault ConvertReply :=
  match convertForm text label form with
  | .ok reply => .ok reply
  | .error f =>
    if f.isTold then .ok ⟨"", "Error during conversion: " ++ f.message⟩ else .error f

/-! ## Export -/

/-- What became of an export: the path and content of the file that was written, and a message. -/
structure ExportReply where
  written : Option (String × String)
  message : String
deriving DecidableEq, Repr

/-- The lower case of a text, character by character. -/
def lowered (cs : List Char) : List Char := cs.map Text.lowerChar

/-- The name ends with an extension in either case. -/
def hasExtension (extension name : List Char) : Bool :=
  (Text.after? extension.reverse (lowered name).reverse).isSome

/-- The name of the file to write: `converted` if none is given, with the extension added unless it is
there. -/
def fileName (extension : List Char) (name : Option String) : String :=
  let given := Text.strip ((name.getD "").toList)
  let base := if given.isEmpty then "converted".toList else given
  String.ofList (if hasExtension extension base then base else base ++ extension)

/-- Exports what a conversion wrote to a file below a folder. -/
def exportOutput (folder : String) (output : String) (label : Json) (name : Option String) :
    Except Conversion.ChoiceFault (Except File.Fault ExportReply) :=
  if output = "" then .ok (.ok ⟨none, "Nothing to export."⟩)
  else do
    let c ← Conversion.ofChoice label
    let file := fileName ('.' :: c.extension.toList) name
    let path := File.join folder file
    match File.openFault? folder file with
    | none => .ok (.ok ⟨some (path, output), "Export successful! Saved to " ++ path⟩)
    | some .nullCharacter => .ok (.error .nullCharacter)
    | some f => .ok (.ok ⟨none, "Error during export: " ++ f.message⟩)

/-- Two texts are lowered one by one. -/
theorem lowered_append (a b : List Char) : lowered (a ++ b) = lowered a ++ lowered b := by
  simp [lowered]

/-- The name of an exported file ends with the extension, in either case. -/
theorem fileName_extension {extension : List Char} (h : lowered extension = extension)
    (name : Option String) : hasExtension extension (fileName extension name).toList := by
  simp only [fileName]
  generalize (if (Text.strip (name.getD "").toList).isEmpty then "converted".toList
    else Text.strip (name.getD "").toList) = base
  rw [String.toList_ofList]
  split
  · assumption
  · unfold hasExtension
    rw [lowered_append, h, List.reverse_append]
    have h2 : Text.after? extension.reverse (extension.reverse ++ (lowered base).reverse)
        = some (lowered base).reverse := Text.after?_eq_some_iff.2 rfl
    simp [h2]

end Panel

end DocDesk
