import DocDesk.Json.Basic
import DocDesk.Number.Whole

/-!
# Writing JSON text

A document is written on one line, or one item a line with a given unit of indentation.  Characters
beyond ASCII are kept; quotes, backslashes and controls are escaped.

Main definition: `render`.
-/

namespace DocDesk.Json

/-- How the parts of a document are laid out. -/
inductive Layout where
  /-- Everything on one line. -/
  | line
  /-- One item a line, each level indented by one more unit. -/
  | block (unit : List Char)
deriving DecidableEq, Repr

/-- The layout of an indentation width; a negative width indents by nothing. -/
def Layout.ofWidth (n : Int) : Layout := .block (List.replicate n.toNat ' ')

namespace Writer

/-- One character of a string. -/
def escaped (c : Char) : List Char :=
  if c = '"' then ['\\', '"']
  else if c = '\\' then ['\\', '\\']
  else if c = '\n' then ['\\', 'n']
  else if c = '\r' then ['\\', 'r']
  else if c = '\t' then ['\\', 't']
  else if c = '\x0c' then ['\\', 'f']
  else if c = '\x08' then ['\\', 'b']
  else if c.toNat < 0x20 then '\\' :: 'u' :: Text.hexText 4 c.toNat
  else [c]

/-- A string between its quotes. -/
def quotedString (s : String) : List Char := '"' :: s.toList.flatMap escaped ++ ['"']

/-- The text of a double. -/
def floatText (x : Binary64) : List Char := x.textWith "NaN" "Infinity"

/-- A line break with the indentation of a level; nothing on one line. -/
def lineBreak (layout : Layout) (level : Nat) : List Char :=
  match layout with
  | .line => []
  | .block unit => '\n' :: (List.replicate level unit).flatten

/-- What stands between two items of a level. -/
def separator (layout : Layout) (level : Nat) : List Char :=
  match layout with
  | .line => [',', ' ']
  | .block _ => ',' :: lineBreak layout level

mutual

/-- The text of a document that starts at a level. -/
def write (layout : Layout) (level : Nat) : Json → List Char
  | .null => ['n', 'u', 'l', 'l']
  | .bool true => ['t', 'r', 'u', 'e']
  | .bool false => ['f', 'a', 'l', 's', 'e']
  | .int i => intText i
  | .float x => floatText x
  | .str s => quotedString s
  | .arr [] => ['[', ']']
  | .arr (v :: vs) =>
    '[' :: lineBreak layout (level + 1) ++ write layout (level + 1) v ++ writeItems layout (level + 1) vs
      ++ lineBreak layout level ++ [']']
  | .obj [] => ['{', '}']
  | .obj ((k, v) :: ms) =>
    '{' :: lineBreak layout (level + 1) ++ quotedString k ++ [':', ' '] ++ write layout (level + 1) v
      ++ writeMembers layout (level + 1) ms ++ lineBreak layout level ++ ['}']

/-- The items after the first. -/
def writeItems (layout : Layout) (level : Nat) : List Json → List Char
  | [] => []
  | v :: vs => separator layout level ++ write layout level v ++ writeItems layout level vs

/-- The members after the first. -/
def writeMembers (layout : Layout) (level : Nat) : List (String × Json) → List Char
  | [] => []
  | (k, v) :: ms =>
    separator layout level ++ quotedString k ++ [':', ' '] ++ write layout level v
      ++ writeMembers layout level ms

end

end Writer

/-- The text of a document in a layout. -/
def render (layout : Layout) (v : Json) : String := String.ofList (Writer.write layout 0 v)

/-- The text of a document on one line. -/
def compact (v : Json) : String := v.render .line

end DocDesk.Json
