import DocDesk.Json.Loose
import DocDesk.Text.Quoted
import DocDesk.Text.Split

/-!
# Query paths

A path leads from the root of a document through fields, indexes, a wildcard or a filter.  A path is
concrete if it has fields and indexes alone, so that it addresses at most one value.

Main definitions: `Path.render` and `Path.isConcrete`.
-/

namespace DocDesk.Query

/-- What a filter compares with. -/
inductive Literal where
  | bool (b : Bool)
  | int (i : Int)
  | float (x : Binary64)
  | text (s : String)
deriving DecidableEq

/-- A literal as a document value. -/
def Literal.toJson : Literal → Json
  | .bool b => .bool b
  | .int i => .int i
  | .float x => .float x
  | .text s => .str s

/-- A step of a path. -/
inductive Segment where
  /-- A member of an object, or an item of an array if the name is made of digits. -/
  | field (name : String)
  /-- An item of an array. -/
  | index (i : Nat)
  /-- Every item of an array. -/
  | wildcard
  /-- The objects of an array whose property compares with a literal. -/
  | filter (property : List String) (op : Json.Comparator) (literal : Literal)
deriving DecidableEq

/-- A path is the list of its steps from the root. -/
structure Path where
  segments : List Segment
deriving DecidableEq

/-! ## Written form -/

/-- The written form of a literal; a text stands in single quotes. -/
def Literal.render : Literal → List Char
  | .bool true => "true".toList
  | .bool false => "false".toList
  | .int i => Json.numberText (.ofInt i)
  | .float x => Json.numberText x
  | .text s => '\'' :: Text.replaceChar '\'' ['\\', '\''] s.toList ++ ['\'']

/-- The written form of a step. -/
def Segment.render : Segment → List Char
  | .field name => '.' :: name.toList
  | .index i => '[' :: natText i ++ [']']
  | .wildcard => ['[', '*', ']']
  | .filter property op literal =>
    "[?(@.".toList ++ Text.join ['.'] (property.map String.toList) ++ op.text.toList ++ literal.render
      ++ [')', ']']

@[simp] theorem Segment.render_field (name : String) :
    (Segment.field name).render = '.' :: name.toList := rfl

@[simp] theorem Segment.render_index (i : Nat) :
    (Segment.index i).render = '[' :: natText i ++ [']'] := rfl

@[simp] theorem Segment.render_wildcard : Segment.wildcard.render = ['[', '*', ']'] := rfl

@[simp] theorem Segment.render_filter (property : List String) (op : Json.Comparator)
    (literal : Literal) :
    (Segment.filter property op literal).render =
      ['[', '?', '('] ++ ['@', '.'] ++ Text.join ['.'] (property.map String.toList) ++ op.text.toList
        ++ literal.render ++ [')', ']'] := rfl

/-- The written form of a path. -/
def Path.render (p : Path) : String :=
  String.ofList ('$' :: p.segments.flatMap Segment.render)

/-! ## Classes of steps -/

/-- A field or an index. -/
def Segment.isConcrete : Segment → Bool
  | .field _ | .index _ => true
  | _ => false

/-- A wildcard or a filter. -/
def Segment.isFanOut (s : Segment) : Bool := !s.isConcrete

/-- A field. -/
def Segment.isField : Segment → Bool
  | .field _ => true
  | _ => false

/-- A filter. -/
def Segment.isFilter : Segment → Bool
  | .filter .. => true
  | _ => false

/-- A path that addresses at most one value. -/
def Path.isConcrete (p : Path) : Bool := p.segments.all Segment.isConcrete

end DocDesk.Query
