import DocDesk.Json.Same
import DocDesk.Schema.Findings

/-!
# Values of keywords

A checked schema has values of the right kinds under its keywords, but a reference may lead to a part of
a document that was never checked.  These readings of a value fail on the wrong kind.
-/

namespace DocDesk.Schema.Shape

/-- The items of an array, the characters of a text or the names of an object. -/
def items : Json → Except Failure (List Json)
  | .arr vs => .ok vs
  | .str s => .ok (s.toList.map fun c => .str (String.singleton c))
  | .obj ms => .ok (ms.map fun m => .str m.1)
  | v => .error (.notIterable v.kindName)

/-- A text by itself, or the items of any other value. -/
def oneOrItems : Json → Except Failure (List Json)
  | .str s => .ok [.str s]
  | v => items v

/-- The members of an object. -/
def members : Json → Except Failure (List (String × Json))
  | .obj ms => .ok ms
  | v => .error (.noAttribute v.kindName "items")

/-- The number of items, members or characters. -/
def length : Json → Except Failure Nat
  | .arr vs => .ok vs.length
  | .str s => .ok s.length
  | .obj ms => .ok ms.length
  | v => .error (.noLength v.kindName)

/-- Whether a name is among the names, the items or the parts of a value. -/
def hasName (v : Json) (name : String) : Except Failure Bool :=
  match v with
  | .obj ms => .ok (ms.any (·.1 = name))
  | .arr vs => .ok (vs.any (Json.same (.str name)))
  | .str s => .ok ((List.range (s.length + 1)).any fun n =>
      (Text.after? name.toList (s.toList.drop n)).isSome)
  | v => .error (.noMembership v.kindName)

/-- Whether a value is the name of a member. -/
def isMember (ms : List (String × Json)) (name : Json) : Except Failure Bool :=
  match name with
  | .str s => .ok (ms.any (·.1 = s))
  | .arr _ | .obj _ => .error (.unhashable name.kindName)
  | _ => .ok false

/-- The order of two numbers, of which booleans are some here; other values have none. -/
def compare (sign : String) (a b : Json) : Except Failure (Option Ordering) :=
  match a.withNumbers, b.withNumbers with
  | .int _, .int _ | .int _, .float _ | .float _, .int _ | .float _, .float _ =>
    .ok (Json.numOrder? a.withNumbers b.withNumbers)
  | _, _ => .error (.unordered sign a.kindName b.kindName)

/-- A number that equals an integer. -/
def isInt (v : Json) (n : Int) : Bool := Json.numOrder? v.withNumbers (.int n) = some .eq

/-- The value of a member, if it is there. -/
def get? (ms : List (String × Json)) (name : String) : Option Json := Json.member? ms name

end DocDesk.Schema.Shape
