import DocDesk.Json.Basic
import DocDesk.Number.Whole

/-!
# Values in messages

The form in which messages and plain-text cells show a value: quoted texts, capitalised words,
brackets with `", "` between items.  Main statement: `inspect_str`.
-/

namespace DocDesk.Json

mutual

/-- A value as messages show it. -/
def inspectChars : Json → List Char
  | .null => "None".toList
  | .bool true => "True".toList
  | .bool false => "False".toList
  | .int i => intText i
  | .float x => x.textWith "nan" "inf"
  | .str s => Text.quotedChars s.toList
  | .arr [] => ['[', ']']
  | .arr (v :: vs) => '[' :: inspectChars v ++ inspectItems vs ++ [']']
  | .obj [] => ['{', '}']
  | .obj ((k, v) :: ms) =>
    '{' :: Text.quotedChars k.toList ++ [':', ' '] ++ inspectChars v ++ inspectMembers ms ++ ['}']

/-- The items after the first. -/
def inspectItems : List Json → List Char
  | [] => []
  | v :: vs => ',' :: ' ' :: inspectChars v ++ inspectItems vs

/-- The members after the first. -/
def inspectMembers : List (String × Json) → List Char
  | [] => []
  | (k, v) :: ms =>
    ',' :: ' ' :: Text.quotedChars k.toList ++ [':', ' '] ++ inspectChars v ++ inspectMembers ms

end

/-- A value as messages show it. -/
def inspect (v : Json) : String := String.ofList v.inspectChars

/-- A value as plain text: a text is itself, anything else as messages show it. -/
def plain : Json → String
  | .str s => s
  | v => v.inspect

/-- The name of a value's kind in messages. -/
def kindName : Json → String
  | .null => "NoneType"
  | .bool _ => "bool"
  | .int _ => "int"
  | .float _ => "float"
  | .str _ => "str"
  | .arr _ => "list"
  | .obj _ => "dict"

/-- A value that counts as nothing: null, false, zero, or anything empty. -/
def isFalsy : Json → Bool
  | .null | .bool false | .int 0 | .str "" | .arr [] | .obj [] => true
  | .float x => x.order? = some 0
  | _ => false

/-- A text is shown between quotes. -/
theorem inspect_str (s : String) : (Json.str s).inspect = Text.quoted s := by
  simp [inspect, inspectChars, Text.quoted]

end DocDesk.Json
