import DocDesk.Json.Nesting
import DocDesk.Text.Split
import DocDesk.Yaml.Style

/-!
# Writing YAML

A document in block form: an entry a line, arrays of a member at the member's own column, everything
else one step further in.  Empty containers are written in flow form.  A member name that cannot stand
on a line of its own is written behind a question mark.

Main statement: `step_range`.
-/

namespace DocDesk.Yaml.Writer

/-- The indentation step for a width that was asked for. -/
def stepOf (indent : Int) : Nat := if 1 < indent ∧ indent < 10 then indent.toNat else 2

/-- The text of a double: an exponent needs a point before it. -/
def floatText (x : Binary64) : List Char :=
  match x with
  | .nan => ".nan".toList
  | .infinite negative => (if negative then ['-'] else []) ++ ".inf".toList
  | .finite _ _ =>
    let cs := x.textWith "nan" "inf"
    if cs.contains '.' then cs else Text.replaceChar 'e' ['.', '0', 'e'] cs

/-- A value that is written on the line where it starts: a scalar or an empty container.  Texts
continue at `indent`. -/
def inline? (indent : Nat) (v : Json) : Option (List Char) :=
  match v with
  | .null => some "null".toList
  | .bool true => some "true".toList
  | .bool false => some "false".toList
  | .int i => some (intText i)
  | .float x => some (floatText x)
  | .str s => some (Style.write false indent s.toList)
  | .arr [] => some ['[', ']']
  | .obj [] => some ['{', '}']
  | _ => none

/-- The longest member name that stands on a line of its own. -/
def keyLimit : Nat := 122

/-- A member name that can stand on a line of its own. -/
def isSimpleKey (name : List Char) : Bool :=
  !name.isEmpty && !Style.isMultiline name && name.length ≤ keyLimit

/-- Blanks. -/
def blanks (n : Nat) : List Char := List.replicate n ' '

/-- A line break with the indentation of the next line. -/
def newLine (column : Nat) : List Char := '\n' :: blanks column

/-- What follows the mark of an entry: a value on the line, or a container whose text from the next
column on is given. -/
def entry (step column : Nat) (v : Json) (text : List Char) : List Char :=
  match inline? (column + step) v with
  | some line => ' ' :: line
  | none => blanks (step - 1) ++ text

/-- The column of a member's value: an array behind a simple name stays at the member's column. -/
def valueColumn (step column : Nat) (name : List Char) (v : Json) : Nat :=
  match v with
  | .arr _ => if isSimpleKey name then column else column + step
  | _ => column + step

/-- A member: its name, a colon and its value, whose text from the value's column on is given. -/
def member (step column : Nat) (name : List Char) (v : Json) (text : List Char) : List Char :=
  if isSimpleKey name then
    Style.write true (column + step) name ++ ':' ::
      (match inline? (column + step) v with
      | some line => ' ' :: line
      | none => newLine (valueColumn step column name v) ++ text)
  else
    '?' :: ' ' :: Style.write false (column + step) name ++ newLine column
      ++ ':' :: entry step column v text

mutual

/-- A container that is not empty, from a column on. -/
def block (step column : Nat) : Json → List Char
  | .arr (v :: vs) => '-' :: entry step column v (block step (column + step) v) ++ items step column vs
  | .obj ((k, v) :: ms) =>
    member step column k.toList v (block step (valueColumn step column k.toList v) v)
      ++ members step column ms
  | _ => []

/-- The items after the first. -/
def items (step column : Nat) : List Json → List Char
  | [] => []
  | v :: vs =>
    newLine column ++ '-' :: entry step column v (block step (column + step) v) ++ items step column vs

/-- The members after the first. -/
def members (step column : Nat) : List (String × Json) → List Char
  | [] => []
  | (k, v) :: ms =>
    newLine column ++ member step column k.toList v (block step (valueColumn step column k.toList v) v)
      ++ members step column ms

end

/-- A scalar that stands for itself without quotes. -/
def isPlainScalar (v : Json) : Bool :=
  match v with
  | .str s => Style.choose false s.toList = .plain
  | v => v.isScalar

/-- A document.  A plain scalar alone is followed by the mark of the document's end. -/
def document (step : Nat) (v : Json) : List Char :=
  match inline? step v with
  | some text => text ++ '\n' :: (if isPlainScalar v then "...\n".toList else [])
  | none => block step 0 v ++ ['\n']

end Writer

/-- The greatest nesting of containers that is written: a level takes three calls. -/
def Writer.depthLimit : Nat := Nesting.levels 12 3

/-- A document as YAML text, with a given width of indentation. -/
def write (indent : Int) (v : Json) : String :=
  String.ofList (Writer.document (Writer.stepOf indent) v)

/-- Whatever indentation is asked for, it is between two and nine. -/
theorem Writer.step_range (indent : Int) :
    1 < Writer.stepOf indent ∧ Writer.stepOf indent < 10 := by
  unfold Writer.stepOf
  split <;> omega

end DocDesk.Yaml
