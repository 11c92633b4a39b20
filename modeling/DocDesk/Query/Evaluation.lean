import DocDesk.Query.PathReader

/-!
# Evaluating query paths

Walking a document along a path.  A field of an array is one of its items if the name is made of
digits; what is not there yields nothing.  Results come in document order, each with the concrete
path of its place.  A walk breaks off at a name of too many digits that meets an array, and at a filter
that would have to compare an array nested too deep.

Main statements: `child_obj`, `item?_eq_some_iff` and `evaluate_of_malformed`.
-/

namespace DocDesk.Query

/-- Why an evaluation breaks off. -/
inductive Fault where
  | digits (fault : DigitFault)
  | nesting (fault : Nesting.Exceeded)
deriving DecidableEq, Repr

/-- The wording of a fault. -/
def Fault.message : Fault → String
  | .digits f => f.message
  | .nesting f => f.message

/-- A value found, with the concrete path that leads to it. -/
structure Match where
  path : String
  value : Json

/-- The kind of a value as results name it; null counts as an object. -/
def valueType : Json → String
  | .null => "object"
  | .bool _ => "boolean"
  | .int _ | .float _ => "number"
  | .str _ => "string"
  | .arr _ => "array"
  | .obj _ => "object"

/-- The kind of the value found. -/
def Match.type (m : Match) : String := valueType m.value

/-- The item of an array. -/
def item? (v : Json) (i : Nat) : Option Json :=
  match v with
  | .arr items => items[i]?
  | _ => none

/-- A name that can stand for an index: ASCII digits alone. -/
def isIndexName (name : String) : Bool := !name.toList.isEmpty && name.toList.all Char.isDigit

/-- The value under a name: a member of an object, or an item of an array under its digits. -/
def child (v : Json) (name : String) : Except Fault (Option Json) :=
  match v with
  | .obj members => .ok (Json.member? members name)
  | .arr items =>
    if isIndexName name then
      ((readDigits name.toList).mapError .digits).map fun i => items[i]?
    else .ok none
  | _ => .ok none

/-- The value that a list of names leads to. -/
def descend (v : Json) : List String → Except Fault (Option Json)
  | [] => .ok (some v)
  | name :: names =>
    match child v name with
    | .ok (some w) => descend w names
    | .ok none => .ok none
    | .error f => .error f

/-- An item passes a filter: it is an object in which the property is present and compares. -/
def passes (property : List String) (op : Json.Comparator) (literal : Literal) (item : Json) :
    Except Fault Bool :=
  match item with
  | .obj _ => do
    match ← descend item property with
    | some x => (op.compare false x literal.toJson).mapError .nesting
    | none => .ok false
  | _ => .ok false

/-- The results of the items of an array, the first of which has index `i`. -/
def walkItems {α : Type} (visit : Nat → Json → Except Fault (List α)) (i : Nat) :
    List Json → Except Fault (List α)
  | [] => .ok []
  | item :: items => do
    let found ← visit i item
    let more ← walkItems visit (i + 1) items
    .ok (found ++ more)

/-- The path of the item with an index. -/
def itemPath (path : String) (i : Nat) : String := path ++ "[" ++ String.ofList (natText i) ++ "]"

/-- The results of walking from a value along steps; `path` leads to the value. -/
def walk (v : Json) (path : String) : List Segment → Except Fault (List Match)
  | [] => .ok [⟨path, v⟩]
  | .field name :: rest => do
    match ← child v name with
    | some w => walk w (path ++ "." ++ name) rest
    | none => .ok []
  | .index i :: rest =>
    match item? v i with
    | some w => walk w (itemPath path i) rest
    | none => .ok []
  | .wildcard :: rest =>
    match v with
    | .arr items => walkItems (fun i item => walk item (itemPath path i) rest) 0 items
    | _ => .ok []
  | .filter property op literal :: rest =>
    match v with
    | .arr items =>
      walkItems
        (fun i item => do
          if ← passes property op literal item then walk item (itemPath path i) rest else .ok [])
        0 items
    | _ => .ok []

/-- The results of a path in a document. -/
def Path.evaluate (p : Path) (root : Json) : Except Fault (List Match) :=
  walk root "$" p.segments

/-- The results of a value taken as a path; what is no path has none. -/
def evaluateValue (root : Json) (path : Json) : Except Fault (List Match) :=
  match pathOfValue path with
  | .ok p => p.evaluate root
  | .error (.malformed _) => .ok []
  | .error (.digits f) => .error (.digits f)

/-- The results of a path text in a document. -/
def evaluate (root : Json) (path : String) : Except Fault (List Match) :=
  evaluateValue root (.str path)

/-- A name leads to the member of an object. -/
theorem child_obj (members : List (String × Json)) (name : String) :
    child (.obj members) name = .ok (Json.member? members name) := rfl

/-- A name of digits within the limit leads to the item at that index. -/
theorem child_arr_of_ok {items : List Json} {name : String} {i : Nat} (hname : isIndexName name = true)
    (hread : readDigits name.toList = .ok i) : child (.arr items) name = .ok items[i]? := by
  have hitem : ((readDigits name.toList).mapError Fault.digits).map (fun i => items[i]?) = .ok items[i]? := by
    rw [hread]
    rfl
  exact (if_pos hname).trans hitem

/-- A name of too many digits fails for them. -/
theorem child_arr_of_error {items : List Json} {name : String} {f : DigitFault}
    (hname : isIndexName name = true) (hread : readDigits name.toList = .error f) :
    child (.arr items) name = .error (.digits f) := by
  have hfault : ((readDigits name.toList).mapError Fault.digits).map (fun i => items[i]?) =
      .error (.digits f) := by
    rw [hread]
    rfl
  exact (if_pos hname).trans hfault

/-- Any other name leads nowhere in an array. -/
theorem child_arr_of_not {items : List Json} {name : String} (hname : isIndexName name = false) :
    child (.arr items) name = .ok none := if_neg (Bool.eq_false_iff.mp hname)

/-- Items are those of arrays. -/
theorem item?_eq_some_iff {v w : Json} {i : Nat} :
    item? v i = some w ↔ ∃ items, v = .arr items ∧ items[i]? = some w := by
  cases v <;> simp [item?]

/-- A text that is no path has no results. -/
theorem evaluate_of_malformed {root : Json} {path : String} {e : PathSyntaxError}
    (h : parsePath path = .error (.malformed e)) : evaluate root path = .ok [] := by
  simp [evaluate, evaluateValue, pathOfValue, h]

end DocDesk.Query
