import DocDesk.Json.Basic
import DocDesk.Number.Rounding

/-!
# Equal values and their order

Two documents are the same if they denote the same value: numbers are compared by value whatever
their kind, booleans are no numbers, and the order of members does not matter.  Numbers, texts and
arrays are ordered; a pair of other values has no order.

Main definitions: `same`, `order?` and `distinct`.
-/

namespace DocDesk.Json

/-- The order of two numbers by value. -/
def numOrder? : Json → Json → Option Ordering
  | .int a, .int b => some (compare a b)
  | .int a, .float y => y.compareInt? a
  | .float x, .int b => (x.compareInt? b).map Ordering.swap
  | .float x, .float y =>
    match x.order?, y.order? with
    | some a, some b => some (compare a b)
    | _, _ => none
  | _, _ => none

/-- Two equal values that hold no others. -/
def sameScalar : Json → Json → Bool
  | .null, .null => true
  | .bool a, .bool b => a = b
  | .str a, .str b => a = b
  | a, b => numOrder? a b = some .eq

mutual

/-- Two documents that denote the same value. -/
def same : Json → Json → Bool
  | .arr as, .arr bs => sameItems as bs
  | .obj ms, .obj ns => ms.length = ns.length && sameMembers ms ns
  | a, b => sameScalar a b

/-- Items that are the same one by one. -/
def sameItems : List Json → List Json → Bool
  | [], [] => true
  | a :: as, b :: bs => same a b && sameItems as bs
  | _, _ => false

/-- Members that are among others with the same values. -/
def sameMembers : List (String × Json) → List (String × Json) → Bool
  | [], _ => true
  | (k, v) :: ms, ns =>
    (match member? ns k with
      | some w => same v w
      | none => false) && sameMembers ms ns

end

/-! ## Order -/

mutual

/-- A document with zero and one in the place of its booleans. -/
def withNumbers : Json → Json
  | .bool b => .int (if b then 1 else 0)
  | .arr vs => .arr (withNumbersItems vs)
  | .obj ms => .obj (withNumbersMembers ms)
  | v => v

/-- Items with zero and one in the place of booleans. -/
def withNumbersItems : List Json → List Json
  | [] => []
  | v :: vs => withNumbers v :: withNumbersItems vs

/-- Members with zero and one in the place of booleans. -/
def withNumbersMembers : List (String × Json) → List (String × Json)
  | [] => []
  | (k, v) :: ms => (k, withNumbers v) :: withNumbersMembers ms

end

mutual

/-- The order of two values. -/
def order? : Json → Json → Option Ordering
  | .str a, .str b => some (if a < b then .lt else if b < a then .gt else .eq)
  | .arr as, .arr bs => itemsOrder? as bs
  | a, b => numOrder? a b

/-- The order of two arrays: that of the first items that differ, or else the shorter one first. -/
def itemsOrder? : List Json → List Json → Option Ordering
  | [], [] => some .eq
  | [], _ :: _ => some .lt
  | _ :: _, [] => some .gt
  | a :: as, b :: bs => if same a b then itemsOrder? as bs else order? a b

end

/-- The order of two items of one array: a boolean has none, but inside an item it counts as a
number. -/
def itemOrder? : Json → Json → Option Ordering
  | .bool _, _ => none
  | _, .bool _ => none
  | a, b => order? (withNumbers a) (withNumbers b)

/-- Puts a value into an ordered list, behind the values that are not greater. -/
def insertInOrder? (v : Json) : List Json → Option (List Json)
  | [] => some [v]
  | w :: ws =>
    match itemOrder? v w with
    | none => none
    | some .lt => some (v :: w :: ws)
    | some _ => (insertInOrder? v ws).map (w :: ·)

/-- The values in order, equal ones as they came; none if two of them have no order. -/
def inOrder? (vs : List Json) : Option (List Json) :=
  vs.foldlM (fun done v => insertInOrder? v done) []

/-- No value is the same as the next one. -/
def noNeighboursSame : List Json → Bool
  | a :: b :: vs => !same a b && noNeighboursSame (b :: vs)
  | _ => true

/-- No value is the same as a later one. -/
def noneSame : List Json → Bool
  | [] => true
  | v :: vs => vs.all (!same v ·) && noneSame vs

/-- Values of which no two are the same.  Values that have an order are compared with their neighbours
in that order, others each with each. -/
def distinct (vs : List Json) : Bool :=
  match inOrder? vs with
  | some ordered => noNeighboursSame ordered
  | none => noneSame vs

end DocDesk.Json
