import DocDesk.Json.Folded
import DocDesk.Schema.Pointer
import DocDesk.Text.Pattern.Fault

/-!
# Findings

Checking a value against a schema finds issues one after the other, and may break off on a failure of
the schema itself.  What comes after the first issue is worked out only if it is asked for: whoever only
asks whether a value is valid never meets a failure behind the first issue.

Main statement: `collect_append` (how findings in a row are read).
-/

namespace DocDesk.Schema

/-! ## Failures -/

/-- Why a reference leads nowhere. -/
inductive ReferenceFault where
  | nowhere (pointer : String) (document : Json)
  | noAnchor (name : String) (document : Json)
  | badAnchor (name : String)
  | unknownResource (reference : String)

/-- The name of the kind of a reference fault. -/
def ReferenceFault.kind : ReferenceFault → String
  | .nowhere _ _ => "PointerToNowhere"
  | .noAnchor _ _ => "NoSuchAnchor"
  | .badAnchor _ => "InvalidAnchor"
  | .unknownResource _ => "Unresolvable"

/-- The wording of a reference fault. -/
def ReferenceFault.message : ReferenceFault → String
  | .nowhere pointer document =>
    Text.quoted pointer ++ " does not exist within " ++ document.inspect ++
      (if pointer = "/" then
        ". The pointer '/' is a valid JSON Pointer but it points to an empty string property ''. "
          ++ "If you intended to point to the entire resource, you should use '#'."
      else "")
  | .noAnchor name document => Text.quoted name ++ " does not exist within " ++ document.inspect
  | .badAnchor name =>
    "'#" ++ name ++ "' is not a valid anchor, neither as a plain name anchor nor as a JSON Pointer. "
      ++ "You may have intended to use '#/" ++ name
      ++ "', as the slash is required *before each segment* of a JSON pointer."
  | .unknownResource reference => reference

/-- Why a check broke off. -/
inductive Failure where
  | reference (fault : ReferenceFault) (followed : Bool)
  | pattern (fault : Text.Pattern.Fault)
  | index (fault : Whole.Fault)
  | unknownType (type schema value : Json)
  | notIterable (kind : String)
  | noMembership (kind : String)
  | noLength (kind : String)
  | notSubscriptable (kind : String)
  | noAttribute (kind name : String)
  | unhashable (kind : String)
  | unordered (sign left right : String)
  | unsupported (sign left right : String)
  | notAPattern
  | wholeOfNaN
  | ratioOfInfinity
  | integerTooLarge
  | zeroDivisor
  | zeroModulus (whole : Bool)
  | endless

/-- The wording of a failure. -/
def Failure.message : Failure → String
  | .reference fault followed => if followed then fault.kind ++ ": " ++ fault.message else fault.message
  | .pattern fault => fault.message
  | .index fault => fault.message
  | .unknownType type schema value =>
    "Unknown type " ++ type.inspect ++ " for validator with schema:\n    " ++ schema.folded 4
      ++ "\n\nWhile checking instance:\n    " ++ value.folded 4
  | .notIterable kind => "'" ++ kind ++ "' object is not iterable"
  | .noMembership kind => "argument of type '" ++ kind ++ "' is not iterable"
  | .noLength kind => "object of type '" ++ kind ++ "' has no len()"
  | .notSubscriptable kind => "'" ++ kind ++ "' object is not subscriptable"
  | .noAttribute kind name => "'" ++ kind ++ "' object has no attribute '" ++ name ++ "'"
  | .unhashable kind => "unhashable type: '" ++ kind ++ "'"
  | .unordered sign left right =>
    "'" ++ sign ++ "' not supported between instances of '" ++ left ++ "' and '" ++ right ++ "'"
  | .unsupported sign left right =>
    "unsupported operand type(s) for " ++ sign ++ ": '" ++ left ++ "' and '" ++ right ++ "'"
  | .notAPattern => "first argument must be string or compiled pattern"
  | .wholeOfNaN => "cannot convert float NaN to integer"
  | .ratioOfInfinity => "cannot convert Infinity to integer ratio"
  | .integerTooLarge => "int too large to convert to float"
  | .zeroDivisor => "float division by zero"
  | .zeroModulus whole => if whole then "integer modulo by zero" else "float modulo"
  | .endless => "maximum recursion depth exceeded"

/-! ## Issues -/

/-- What is wrong with a value: where it is, what is said about it, the keyword with its value and the
schema that it stands in, the value itself, and the keywords that led to it, the outermost first. -/
structure Issue where
  path : List Step
  message : String
  keyword : Option String
  argument : Json
  schema : Json
  data : Json
  trail : List String

/-- An issue of a value, one step further up. -/
def Issue.under (s : Step) (i : Issue) : Issue := { i with path := s :: i.path }

/-- An issue that a keyword led to. -/
def Issue.through (keyword : String) (i : Issue) : Issue := { i with trail := keyword :: i.trail }

/-- Issues one after the other, until they end or the check breaks off. -/
inductive Findings where
  | done
  | broken (f : Failure)
  | found (i : Issue) (rest : Unit → Findings)

namespace Findings

/-- Findings in a row. -/
def append : Findings → (Unit → Findings) → Findings
  | done, next => next ()
  | broken f, _ => broken f
  | found i rest, next => found i fun _ => (rest ()).append next

/-- The findings of several checks in a row. -/
def each (xs : List α) (check : α → Findings) : Findings :=
  match xs with
  | [] => done
  | x :: xs => (check x).append fun _ => each xs check

/-- Findings with every issue changed. -/
def map (f : Issue → Issue) : Findings → Findings
  | done => done
  | broken e => broken e
  | found i rest => found (f i) fun _ => (rest ()).map f

/-- Findings of a value below another one. -/
def under (s : Step) (fs : Findings) : Findings := fs.map (Issue.under s)

/-- Findings that a keyword led to. -/
def through (keyword : String) (fs : Findings) : Findings := fs.map (Issue.through keyword)

/-- Given issues. -/
def ofList : List Issue → Findings
  | [] => done
  | i :: is => found i fun _ => ofList is

/-- A check that may break off before it starts. -/
def ofExcept : Except Failure Findings → Findings
  | .ok fs => fs
  | .error f => broken f

/-- All issues, unless the check breaks off. -/
def collect : Findings → Except Failure (List Issue)
  | done => .ok []
  | broken f => .error f
  | found i rest => do
    let is ← (rest ()).collect
    return i :: is

/-- Whether there is nothing to find. -/
def isClean : Findings → Except Failure Bool
  | done => .ok true
  | broken f => .error f
  | found _ _ => .ok false

/-! ## Findings in a row -/

/-- Findings in a row are collected one after the other. -/
theorem collect_append (fs : Findings) (next : Unit → Findings) :
    (fs.append next).collect = (do
      let is ← fs.collect
      let js ← (next ()).collect
      return is ++ js) := by
  induction fs with
  | done => simp only [append, collect]; cases (next ()).collect <;> rfl
  | broken f => rfl
  | found i rest ih =>
    simp only [append, collect, ih]
    cases (rest ()).collect with
    | error e => rfl
    | ok is => cases (next ()).collect <;> rfl

end Findings

end DocDesk.Schema
