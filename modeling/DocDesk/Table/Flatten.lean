import DocDesk.Table.Key

/-!
# Flattening

A document as one level of members.  The key of a leaf joins the names and indexes on the way to it;
an empty container is kept as a value.  A key that comes again replaces the value and keeps its place.

Main definition: `flatten`.
-/

namespace DocDesk.Table

/-- A name with its value. -/
abbrev Entries := List (String × Json)

mutual

/-- The leaves of a value that stands under a key, in document order. -/
def leavesUnder (sep key : List Char) : Json → List (List Char × Json)
  | .arr [] => [(key, .arr [])]
  | .obj [] => [(key, .obj [])]
  | .arr (v :: vs) => itemLeaves sep key 0 (v :: vs)
  | .obj (m :: ms) => memberLeaves sep key (m :: ms)
  | v => [(key, v)]

/-- The leaves of items, the first of which has index `i`. -/
def itemLeaves (sep parent : List Char) (i : Nat) : List Json → List (List Char × Json)
  | [] => []
  | v :: vs => leavesUnder sep (joinKey parent (natText i) sep) v ++ itemLeaves sep parent (i + 1) vs

/-- The leaves of members. -/
def memberLeaves (sep parent : List Char) : List (String × Json) → List (List Char × Json)
  | [] => []
  | (k, v) :: ms => leavesUnder sep (joinKey parent k.toList sep) v ++ memberLeaves sep parent ms

end

/-- The leaves of a document under a parent key; a document that is no container is one leaf, under
the name `value` if there is no parent. -/
def leaves (v : Json) (parent sep : List Char) : List (List Char × Json) :=
  match v with
  | .arr [] => if parent.isEmpty then [] else [(parent, v)]
  | .obj [] => if parent.isEmpty then [] else [(parent, v)]
  | .arr items => itemLeaves sep parent 0 items
  | .obj members => memberLeaves sep parent members
  | v => [(if parent.isEmpty then "value".toList else parent, v)]

/-- A document as one level of members. -/
def flatten (v : Json) (parent : String := "") (sep : String := ".") : Entries :=
  Json.ofPairs ((leaves v parent.toList sep.toList).map fun p => (String.ofList p.1, p.2))

end DocDesk.Table
