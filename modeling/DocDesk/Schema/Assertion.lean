import DocDesk.Schema.Draft
import DocDesk.Schema.Format
import DocDesk.Schema.Shape
import DocDesk.Text.Pattern.Matching

/-!
# Keywords about a single value

What every keyword says that looks at a value and not inside it: its type, its size, its place among
given values, its text.

Main definition: `issues`.  Main statement: `issues_required` (one issue for every missing name).
-/

namespace DocDesk.Schema

/-- A keyword with its value, the schema that it stands in and the value that it is about. -/
structure Site where
  keyword : String
  argument : Json
  schema : List (String × Json)
  data : Json

namespace Site

/-- The issue that a keyword raises. -/
def issue (s : Site) (message : String) : Issue :=
  ⟨[], message, some s.keyword, s.argument, .obj s.schema, s.data, []⟩

/-- No issue if a condition holds, and one otherwise. -/
def demand (s : Site) (fine : Bool) (message : String) : List Issue :=
  if fine then [] else [s.issue message]

/-- The data, and then what is said about it. -/
def about (s : Site) (message : String) : String := s.data.inspect ++ message

end Site

/-- Names in a message, with the verb that agrees with their number. -/
def nameList (vs : List Json) : String :=
  Text.joined ", " (vs.map Json.inspect) ++ (if vs.length = 1 then " was" else " were")

/-- Texts in the order of their characters, as names. -/
def sortedNames (names : List String) : List Json :=
  (names.mergeSort fun a b => !(b < a)).map .str

/-! ## Texts -/

/-- Whether a pattern occurs in a text. -/
def patternOccurs (pattern : String) (text : String) : Except Failure Bool :=
  match Text.Pattern.parse pattern with
  | .ok p => .ok (p.occursIn text)
  | .error f => .error (.pattern f)

namespace Assertion

/-- Whether a value is of a type. -/
def isOfType (d : Draft) (schema : Json) (data type : Json) : Except Failure Bool :=
  match type with
  | .arr _ | .obj _ => .error (.unhashable type.kindName)
  | .str name =>
    match d.isType? name data with
    | some b => .ok b
    | none => .error (.unknownType type schema data)
  | _ => .error (.unknownType type schema data)

/-- The words for types that a value is not of. -/
def typeNames (types : List Json) : String :=
  " is not of type " ++ Text.joined ", " (types.map Json.inspect)

/-- A value of one of the types. -/
def typeIssues (d : Draft) (s : Site) : Except Failure (List Issue) := do
  let types ← Shape.oneOrItems s.argument
  let fine ← types.anyM (isOfType d (.obj s.schema) s.data)
  return s.demand fine (s.about (typeNames types))

/-! ## Numbers -/

/-- Whether a quotient of doubles is whole; one that is too large is divided exactly. -/
def isQuotientWhole (data : Json) (x y : Binary64) : Except Failure Bool :=
  match x.div? y with
  | none => .error .zeroDivisor
  | some .nan => .error .wholeOfNaN
  | some (.infinite _) =>
    match data, y.signedUnits? with
    | .int i, some n => .ok (i * (Binary64.unitsPerOne : Int) % n = 0)
    | _, some n =>
      match x.signedUnits? with
      | some m => .ok (m % n = 0)
      | none => .error .ratioOfInfinity
    | _, none => .error .ratioOfInfinity
  | some q => .ok q.isWhole

/-- Whether a number is a multiple of another one. -/
def isMultiple (data divisor : Json) : Except Failure Bool :=
  match divisor, data with
  | .float y, .int i =>
    match Binary64.ofInt? i with
    | some x => isQuotientWhole data x y
    | none => .error .integerTooLarge
  | .float y, .float x => isQuotientWhole data x y
  | divisor, data =>
    match divisor.withNumbers, data with
    | .int n, .int i => if n = 0 then .error (.zeroModulus true) else .ok (i % n = 0)
    | .int n, .float x =>
      match Binary64.ofInt? n with
      | none => .error .integerTooLarge
      | some _ =>
        if n = 0 then .error (.zeroModulus false)
        else match x.signedUnits? with
        | some m => .ok (m % (n * (Binary64.unitsPerOne : Int)) = 0)
        | none => .ok false
    | _, _ => .error (.unsupported "%" data.kindName divisor.kindName)

/-- A number on the right side of a bound. -/
def boundIssues (s : Site) (sign : String) (wrong : Ordering → Bool) (words : String) :
    Except Failure (List Issue) := do
  if !s.data.isNumber then return []
  let order ← Shape.compare sign s.data s.argument
  return s.demand (!order.any wrong) (s.about (words ++ s.argument.inspect))

/-- The words for a number below a bound. -/
def minimumWords (strict : Bool) : String :=
  (if strict then " is less than or equal to" else " is less than") ++ " the minimum of "

/-- The words for a number above a bound. -/
def maximumWords (strict : Bool) : String :=
  (if strict then " is greater than or equal to" else " is greater than") ++ " the maximum of "

/-- A number not below a bound. -/
def minimumIssues (strict : Bool) (s : Site) : Except Failure (List Issue) :=
  boundIssues s (if strict then "<=" else "<") (fun o => o = .lt || strict && o = .eq)
    (minimumWords strict)

/-- A number not above a bound. -/
def maximumIssues (strict : Bool) (s : Site) : Except Failure (List Issue) :=
  boundIssues s (if strict then ">=" else ">") (fun o => o = .gt || strict && o = .eq)
    (maximumWords strict)

/-- Whether a keyword beside this one is set. -/
def isSet (s : Site) (name : String) : Bool :=
  (Shape.get? s.schema name).any fun v => !v.isFalsy

/-! ## Sizes -/

/-- At least as many parts as the argument says. -/
def leastIssues (s : Site) (size : Option Nat) (words : String) : Except Failure (List Issue) := do
  match size with
  | none => return []
  | some n =>
    let order ← Shape.compare "<" (.int n) s.argument
    let words := if Shape.isInt s.argument 1 then " should be non-empty" else words
    return s.demand (order != some .lt) (s.about words)

/-- At most as many parts as the argument says. -/
def mostIssues (s : Site) (size : Option Nat) (words : String) : Except Failure (List Issue) := do
  match size with
  | none => return []
  | some n =>
    let order ← Shape.compare ">" (.int n) s.argument
    let words := if Shape.isInt s.argument 0 then " is expected to be empty" else words
    return s.demand (order != some .gt) (s.about words)

/-- The number of characters of a text. -/
def textSize? : Json → Option Nat
  | .str t => some t.length
  | _ => none

/-- The number of items of an array. -/
def arraySize? : Json → Option Nat
  | .arr vs => some vs.length
  | _ => none

/-- The number of members of an object. -/
def objectSize? : Json → Option Nat
  | .obj ms => some ms.length
  | _ => none

/-! ## Members -/

/-- The names of a list that an object lacks. -/
def missingOf (ms : List (String × Json)) : List Json → Except Failure (List Json)
  | [] => .ok []
  | n :: ns => do
    let there ← Shape.isMember ms n
    let rest ← missingOf ms ns
    return if there then rest else n :: rest

/-- The missing ones of some names are those that no member has. -/
theorem missingOf_str (ms : List (String × Json)) (names : List String) :
    missingOf ms (names.map .str) = .ok ((names.filter fun n => !ms.any (·.1 = n)).map .str) := by
  induction names with
  | nil => rfl
  | cons n names ih =>
    simp only [List.map_cons, missingOf, Shape.isMember, ih, bind, Except.bind, pure, Except.pure,
      List.filter_cons]
    cases ms.any (·.1 = n) <;> simp

/-- One issue for every name that is missing. -/
def missingIssues (s : Site) (names : Json) (words : Json → String) :
    Except Failure (List Issue) := do
  match s.data with
  | .obj ms =>
    let missing ← missingOf ms (← Shape.items names)
    return missing.map fun n => s.issue (words n)
  | _ => return []

/-- The words for a name that another one asks for. -/
def dependencyWords (property : String) (name : Json) : String :=
  name.inspect ++ " is a dependency of " ++ Text.quoted property

/-- The names that every present member asks for. -/
def dependentRequiredIssues (s : Site) : Except Failure (List Issue) := do
  match s.data with
  | .obj ms =>
    let dependencies ← Shape.members s.argument
    let present := dependencies.filter fun d => ms.any (·.1 = d.1)
    let found ← present.mapM fun d => missingIssues s d.2 (dependencyWords d.1)
    return found.flatten
  | _ => return []

/-! ## All assertions -/

/-- The issues that a keyword about a single value raises. -/
def issues (d : Draft) (s : Site) : Assertion → Except Failure (List Issue)
  | type => typeIssues d s
  | enum => do
    let values ← Shape.items s.argument
    return s.demand (values.any (Json.same · s.data)) (s.about (" is not one of " ++ s.argument.inspect))
  | const =>
    return s.demand (Json.same s.data s.argument) (s.argument.inspect ++ " was expected")
  | multipleOf => do
    if !s.data.isNumber then return []
    let fine ← isMultiple s.data s.argument
    return s.demand fine (s.about (" is not a multiple of " ++ s.argument.inspect))
  | minimum => minimumIssues false s
  | maximum => maximumIssues false s
  | exclusiveMinimum => minimumIssues true s
  | exclusiveMaximum => maximumIssues true s
  | minimumOrAbove => minimumIssues (isSet s "exclusiveMinimum") s
  | maximumOrBelow => maximumIssues (isSet s "exclusiveMaximum") s
  | minLength => leastIssues s (textSize? s.data) " is too short"
  | maxLength => mostIssues s (textSize? s.data) " is too long"
  | minItems => leastIssues s (arraySize? s.data) " is too short"
  | maxItems => mostIssues s (arraySize? s.data) " is too long"
  | minProperties => leastIssues s (objectSize? s.data) " does not have enough properties"
  | maxProperties => mostIssues s (objectSize? s.data) " has too many properties"
  | pattern =>
    match s.data, s.argument with
    | .str text, .str p => do
      let fine ← patternOccurs p text
      return s.demand fine (s.about (" does not match " ++ Text.quoted p))
    | .str _, _ => .error .notAPattern
    | _, _ => return []
  | format =>
    match s.data, s.argument with
    | _, .arr _ | _, .obj _ => .error (.unhashable s.argument.kindName)
    | .str text, .str name =>
      match Format.holds name text with
      | .ok fine => return s.demand fine (s.about (" is not a " ++ Text.quoted name))
      | .error f => .error (.pattern f)
    | _, _ => return []
  | uniqueItems =>
    match s.data with
    | .arr vs =>
      return s.demand (s.argument.isFalsy || Json.distinct vs) (s.about " has non-unique elements")
    | _ => return []
  | required => missingIssues s s.argument fun n => n.inspect ++ " is a required property"
  | dependentRequired => dependentRequiredIssues s

/-- The names of a list that an object lacks are reported one by one, in the order of the list. -/
theorem issues_required (d : Draft) (s : Site) (ms : List (String × Json)) (names : List String)
    (hd : s.data = .obj ms) (ha : s.argument = .arr (names.map .str)) :
    issues d s required = .ok ((names.filter fun n => !ms.any (·.1 = n)).map fun n =>
      s.issue (Text.quoted n ++ " is a required property")) := by
  simp [issues, missingIssues, hd, ha, Shape.items, bind, Except.bind, missingOf_str, pure, Except.pure,
    Json.inspect_str, Function.comp_def]

end Assertion

end DocDesk.Schema
