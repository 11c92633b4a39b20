import DocDesk.Number.Binary64

/-!
# JSON documents

A document is null, a boolean, an integer, a double, a text, an array or an object.  Integers and
doubles are different kinds, and an object is the list of its members in the order in which their
names first appeared.

Main statements: `keys_put` and `get?_put` (what storing a member changes).
-/

namespace DocDesk

/-- A JSON document. -/
inductive Json where
  | null
  | bool (b : Bool)
  | int (i : Int)
  | float (x : Binary64)
  | str (s : String)
  | arr (items : List Json)
  | obj (members : List (String × Json))
deriving Inhabited

namespace Json

/-! ## Members of an object -/

/-- The value stored under a name. -/
def member? (members : List (String × α)) (name : String) : Option α := members.lookup name

/-- Stores a value under a name: in place if the name is there, at the end if not. -/
def put (members : List (String × α)) (name : String) (value : α) : List (String × α) :=
  match members with
  | [] => [(name, value)]
  | (k, v) :: rest => if k = name then (name, value) :: rest else (k, v) :: put rest name value

/-- Stores members one after the other; a repeated name keeps its first place and its last value. -/
def putAll (members pairs : List (String × α)) : List (String × α) :=
  pairs.foldl (fun acc p => put acc p.1 p.2) members

/-- The members that a list of pairs leaves behind. -/
def ofPairs (pairs : List (String × α)) : List (String × α) := putAll [] pairs

/-- A storing under a new name adds the name at the end, one under a known name adds none. -/
theorem keys_put (members : List (String × α)) (name : String) (value : α) :
    (put members name value).map Prod.fst =
      if name ∈ members.map Prod.fst then members.map Prod.fst else members.map Prod.fst ++ [name] := by
  induction members with
  | nil => simp [put]
  | cons p rest ih =>
    obtain ⟨k, v⟩ := p
    by_cases h : k = name
    · subst h; simp [put]
    · have h' : name ≠ k := fun e => h e.symm
      simp only [put, h, ↓reduceIte, List.map_cons, ih, List.mem_cons, h', false_or]
      split <;> simp

/-- A storing is seen under its name and changes no other. -/
theorem get?_put (members : List (String × α)) (name other : String) (value : α) :
    member? (put members name value) other =
      if other = name then some value else member? members other := by
  induction members with
  | nil =>
    by_cases h : other = name
    · simp [put, member?, h]
    · have : (other == name) = false := by simpa using h
      simp [put, member?, List.lookup_cons, this, h]
  | cons p rest ih =>
    obtain ⟨k, v⟩ := p
    simp only [member?] at ih ⊢
    by_cases h : k = name
    · subst h
      by_cases ho : other = k
      · simp [put, ho]
      · have : (other == k) = false := by simpa using ho
        simp [put, List.lookup_cons, this, ho]
    · by_cases ho : other = k
      · subst ho; simp [put, h]
      · have : (other == k) = false := by simpa using ho
        simp [put, List.lookup_cons, h, this, ih]

/-! ## Classes of documents -/

/-- Null. -/
def isNull : Json → Bool
  | .null => true
  | _ => false

/-- Neither an array nor an object. -/
def isScalar : Json → Bool
  | .arr _ | .obj _ => false
  | _ => true

/-- An array or an object without content. -/
def isEmptyContainer : Json → Bool
  | .arr [] | .obj [] => true
  | _ => false

/-- An integer or a double. -/
def isNumber : Json → Bool
  | .int _ | .float _ => true
  | _ => false

end Json

end DocDesk
