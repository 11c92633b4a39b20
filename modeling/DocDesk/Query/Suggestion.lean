import DocDesk.Json.Whole
import DocDesk.Query.Path
import DocDesk.Table.Row

/-!
# Example queries for a document

Paths to the lists and to the scalar fields of a document, found by following objects, and lists
through their first element.  The examples are written as query paths, most general first, without
repetition.

Main statements: `suggestions_nodup` and `suggest_length`.
-/

namespace DocDesk.Query

/-- A step of an example path. -/
inductive Step where
  | name (s : String)
  | index (i : Nat)
  | any
deriving DecidableEq, Repr

/-- A step as a value; any element is a star. -/
def Step.toJson : Step → Json
  | .name s => .str s
  | .index i => .int i
  | .any => .str "*"

/-! ## Path texts from steps -/

/-- A step value as path text: a whole number or a truth value is an index, a star is every element,
anything else is a name. -/
def stepText (step : Json) : List Char :=
  match step with
  | .int _ | .bool _ => '[' :: step.plain.toList ++ [']']
  | _ => if step.plain = "*" then ['[', '*', ']'] else '.' :: step.plain.toList

/-- The path text of step values. -/
def pathText (steps : List Json) : String := String.ofList ('$' :: steps.flatMap stepText)

/-- The path text of steps. -/
def buildPath (steps : List Step) : String := pathText (steps.map Step.toJson)

/-- A name that can be a field of a path: not empty and free of the characters that paths reserve. -/
def isQueryName (name : String) : Bool :=
  !name.toList.isEmpty && name.toList.all fun c => c ≠ '.' && c ≠ '[' && c ≠ ']' && c ≠ '*'

/-! ## Discovery -/

mutual

/-- Below a list at `path`: nothing, or the lists of its first element if that is an object. -/
def listPathsBelow (path : List Step) : Json → List (List Step)
  | .arr (v :: _) => listPathsOfElement (path ++ [.any]) v
  | _ => []

/-- The lists of an element if it is an object. -/
def listPathsOfElement (path : List Step) : Json → List (List Step)
  | .obj members => listPathsOfMembers path members
  | _ => []

/-- The paths to the lists among members and below them; `parent` leads to the object. -/
def listPathsOfMembers (parent : List Step) : List (String × Json) → List (List Step)
  | [] => []
  | (k, v) :: ms =>
    (if isQueryName k then
      match v with
      | .arr _ => (parent ++ [.name k]) :: listPathsBelow (parent ++ [.name k]) v
      | .obj _ => listPathsOfElement (parent ++ [.name k]) v
      | _ => []
    else []) ++ listPathsOfMembers parent ms

end

/-- The paths to the lists of a document. -/
def listPaths (v : Json) : List (List Step) :=
  match v with
  | .arr _ => [] :: listPathsBelow [] v
  | v => listPathsOfElement [] v

mutual

/-- The paths to the scalar fields of a value if it is an object; a list of objects is followed once. -/
def leafPathsOfElement (parent : List Step) : Json → List (List Step)
  | .obj members => leafPathsOfMembers parent members
  | _ => []

/-- Below a list at `path`, unless a list was followed before. -/
def leafPathsBelow (path : List Step) : Json → List (List Step)
  | .arr (v :: _) => if .any ∈ path then [] else leafPathsOfElement (path ++ [.any]) v
  | _ => []

/-- The paths to the scalar fields among members and below them. -/
def leafPathsOfMembers (parent : List Step) : List (String × Json) → List (List Step)
  | [] => []
  | (k, v) :: ms =>
    (if isQueryName k then
      match v with
      | .obj _ => leafPathsOfElement (parent ++ [.name k]) v
      | .arr _ => leafPathsBelow (parent ++ [.name k]) v
      | _ => [parent ++ [.name k]]
    else []) ++ leafPathsOfMembers parent ms

end

/-- The paths to the scalar fields of a document. -/
def leafPaths (v : Json) : List (List Step) :=
  match v with
  | .arr _ => leafPathsBelow [] v
  | v => leafPathsOfElement [] v

/-! ## Suggestions -/

/-- The examples for a list: every element and the first element, or the path itself below a list. -/
def listExamples (steps : List Step) : List String :=
  match steps.count .any with
  | 0 => [buildPath (steps ++ [.any]), buildPath (steps ++ [.index 0])]
  | 1 => [buildPath steps]
  | _ => []

/-- All examples for a document, most general first. -/
def suggestions (v : Json) : List String :=
  Table.addNew [] ("$" :: (listPaths v).flatMap listExamples ++ (leafPaths v).map buildPath)

/-- The number of examples that are given unless another is asked for. -/
def defaultLimit : Int := 20

/-- The first examples for a document; at least one. -/
def suggest (v : Json) (limit : Int) : List String := (suggestions v).take (max 1 limit).toNat

/-- The first examples for a document, with the limit given as a value of any kind. -/
def suggestUpTo (v limit : Json) : Except Json.WholeFault (List String) :=
  limit.toWhole.map (suggest v)

/-- Nothing is suggested twice. -/
theorem suggestions_nodup (v : Json) : (suggestions v).Nodup :=
  Table.addNew_nodup List.nodup_nil _

/-- No more is suggested than the limit says, and one at least is allowed. -/
theorem suggest_length (v : Json) (limit : Int) : (suggest v limit).length ≤ (max 1 limit).toNat :=
  List.length_take_le _ _

end DocDesk.Query
