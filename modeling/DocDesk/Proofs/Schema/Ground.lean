import DocDesk.Proofs.Schema.Fit

/-!
# What keywords stand on

A keyword that applies schemas does not break off if its value fits and if the checks that it asks for
come to their end.  The ground of a keyword says for which schemas they do, by the way in which it hands
them a value: the value itself or a part of it, to be told all issues or only whether there are any, or by
a reference.

Main statement: `Applicator.shown_issue` (the issues of a keyword whose value fits can be shown).
-/

namespace DocDesk.Schema

/-! ## Conditions on schemas -/

/-- A schema that lets its member be absent. -/
def isOptional : Json → Bool
  | .obj keywords => ifMember keywords "required" Json.isFalsy
  | _ => false

/-- The patterns of a schema can be read as one choice. -/
def joinsPatterns (schema : List (String × Json)) : Bool :=
  match Task.joinedPatterns schema with
  | .ok patterns => patterns = "" || isPattern patterns
  | .error _ => false

/-- The names that a member asks for, or a schema. -/
def asksFor (inner : Json → Bool) : Json → Bool
  | .arr names => names.all isText
  | v => inner v

/-- The name or the names that a member asks for, or a schema. -/
def asksForOne (inner : Json → Bool) : Json → Bool
  | .obj ms => inner (.obj ms)
  | v => allListed isText v

/-- The name of a type, or a schema. -/
def isTypeOrSchema (d : Draft) (inner : Json → Bool) : Json → Bool
  | .obj ms => inner (.obj ms)
  | v => isTypeName d v

/-- A text with a condition. -/
def ifReference (p : String → Bool) : Json → Bool
  | .str r => p r
  | _ => false

/-- What refers to something passing a test is a text that passes it. -/
theorem exists_of_ifReference {p : String → Bool} {v : Json} (h : ifReference p v = true) :
    ∃ r, v = .str r ∧ p r = true := by
  cases v with
  | str r => exact ⟨r, rfl, h⟩
  | null | bool _ | int _ | float _ | arr _ | obj _ => cases h

/-! ## Grounds -/

/-- For which schemas, and for which references, a keyword may count on a check that comes to its end:
of the value itself or of its parts, in full or only as to whether there are issues, and of the names of
members.  The last three are worked out only if they are asked for: a recursive reference, and whether it
can be told which items and which members of the value the schema evaluates. -/
structure Ground where
  here : Json → Bool
  valid : Json → Bool
  part : Json → Bool
  validPart : Json → Bool
  name : Json → Bool
  reference : String → Bool
  recursive : Unit → Bool
  evaluatedItems : Unit → Bool
  evaluatedMembers : Unit → Bool

/-- The value fits a keyword that applies schemas, on a given ground. -/
def Applicator.fits (d : Draft) (g : Ground) (schema : List (String × Json)) (argument : Json) :
    Applicator → Bool
  | ref | dynamicRef => ifReference g.reference argument
  | recursiveRef => g.recursive ()
  | allOf | anyOf => allItems g.here argument
  | oneOf => allItems (fun v => g.here v && g.valid v) argument
  | not => g.valid argument
  | ifThenElse => g.valid argument && ifMember schema "then" g.here && ifMember schema "else" g.here
  | properties => allMembers (fun _ => g.part) argument
  | propertiesWithRequired => allMembers (fun _ v => isOptional v && g.part v) argument
  | patternProperties => allMembers (fun p v => isPattern p && g.part v) argument
  | additionalProperties =>
    ifMember schema "properties" isObject && joinsPatterns schema && ifObject g.part argument
  | propertyNames => g.name argument
  | items => oneOrEach g.part argument
  | itemsOfObject => objectOrEach g.part argument
  | itemsAfterPrefix => ifMember schema "prefixItems" isArray && g.part argument
  | prefixItems => allItems g.part argument
  | additionalItems =>
    ifMember schema "items" (fun v => isObject v || isArray v) && ifObject g.part argument
  | contains => g.validPart argument
  | containsCounted =>
    ifMember schema "minContains" Json.isNumber && ifMember schema "maxContains" Json.isNumber &&
      g.validPart argument
  | dependencies => allMembers (fun _ => asksFor g.here) argument
  | dependenciesOrName => allMembers (fun _ => asksForOne g.here) argument
  | dependentSchemas => allMembers (fun _ => g.here) argument
  | unevaluatedItems => g.evaluatedItems ()
  | unevaluatedProperties => g.evaluatedMembers () && g.part argument
  | «extends» => objectOrEach g.here argument
  | typeOrSchema => allListed (isTypeOrSchema d g.here) argument
  | disallow => allListed (fun type => g.valid (.obj [("type", .arr [type])])) argument

/-- The value fits its keyword. -/
def Rule.fits (d : Draft) (k : Known) (g : Ground) (schema : List (String × Json)) (argument : Json) :
    Rule → Bool
  | .assertion a => a.fits d k argument
  | .applicator a => a.fits d g schema argument

/-- The issues of a keyword that applies schemas can be shown. -/
theorem Applicator.shown_issue {d : Draft} {g : Ground} {s : Site} {a : Applicator}
    (hrule : d.rule? s.keyword = some (.applicator a))
    (hfits : a.fits d g s.schema s.argument = true) (message : String) : (s.issue message).Shown := by
  have hrequired : s.keyword ≠ "required" := by
    intro heq
    rw [heq] at hrule
    rcases rule?_required d with hnone | hown
    · rw [hnone] at hrule
      cases hrule
    · rw [hown] at hrule
      cases hrule
  by_cases hadditional : s.keyword = "additionalProperties"
  · rw [hadditional, rule?_additionalProperties] at hrule
    cases hrule
    obtain ⟨hplaces, -⟩ := Bool.and_eq_true_iff.mp hfits
    exact .of_additional (congrArg some hadditional) rfl (Bool.and_eq_true_iff.mp hplaces).1
  · exact .of_own Site.own_issue hrequired hadditional

end DocDesk.Schema
