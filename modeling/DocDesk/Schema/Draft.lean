import DocDesk.Json.Inspect
import DocDesk.Uri

/-!
# Drafts of the schema language

A schema is read under one of six drafts of the language.  A draft says which keywords there are and what
they do, which types have names, and where in a schema other schemas stand.

Main statement: `ofUri?_uri` (every draft is found under its own name).
-/

namespace DocDesk.Schema

/-! ## Keywords -/

/-- A keyword that looks at a value and at nothing inside it. -/
inductive Assertion where
  | type
  | enum
  | const
  | multipleOf
  | minimum
  | maximum
  | exclusiveMinimum
  | exclusiveMaximum
  | minimumOrAbove
  | maximumOrBelow
  | minLength
  | maxLength
  | minItems
  | maxItems
  | minProperties
  | maxProperties
  | pattern
  | format
  | uniqueItems
  | required
  | dependentRequired
deriving DecidableEq, Repr

/-- A keyword that applies other schemas to a value or to values inside it. -/
inductive Applicator where
  | ref
  | dynamicRef
  | recursiveRef
  | allOf
  | anyOf
  | oneOf
  | not
  | ifThenElse
  | properties
  | propertiesWithRequired
  | patternProperties
  | additionalProperties
  | propertyNames
  | items
  | itemsOfObject
  | itemsAfterPrefix
  | prefixItems
  | additionalItems
  | contains
  | containsCounted
  | dependencies
  | dependenciesOrName
  | dependentSchemas
  | unevaluatedItems
  | unevaluatedProperties
  | extends
  | typeOrSchema
  | disallow
deriving DecidableEq, Repr

/-- What a keyword does. -/
inductive Rule where
  | assertion (a : Assertion)
  | applicator (a : Applicator)
deriving DecidableEq, Repr

/-! ## Drafts -/

/-- A draft of the schema language. -/
inductive Draft where
  | draft3
  | draft4
  | draft6
  | draft7
  | draft2019
  | draft2020
deriving DecidableEq, Repr

namespace Draft

/-- All drafts, oldest first. -/
def all : List Draft := [draft3, draft4, draft6, draft7, draft2019, draft2020]

/-- The name of a draft, which is also the place of its own schema. -/
def uri : Draft → String
  | draft3 => "http://json-schema.org/draft-03/schema"
  | draft4 => "http://json-schema.org/draft-04/schema"
  | draft6 => "http://json-schema.org/draft-06/schema"
  | draft7 => "http://json-schema.org/draft-07/schema"
  | draft2019 => "https://json-schema.org/draft/2019-09/schema"
  | draft2020 => "https://json-schema.org/draft/2020-12/schema"

/-- The draft of a name; an empty fragment does not count. -/
def ofUri? (name : String) : Option Draft :=
  let normal := Uri.normal name.toList
  all.find? fun d => d.uri.toList = normal

/-- A draft before 2019, under which a reference hides all other keywords beside it. -/
def isOld : Draft → Bool
  | draft2019 | draft2020 => false
  | _ => true

/-- One of the two oldest drafts. -/
def isOldest : Draft → Bool
  | draft3 | draft4 => true
  | _ => false

/-- The keywords of all drafts. -/
def common : List (String × Rule) :=
  [("$ref", .applicator .ref),
    ("additionalProperties", .applicator .additionalProperties),
    ("enum", .assertion .enum),
    ("format", .assertion .format),
    ("maxItems", .assertion .maxItems),
    ("maxLength", .assertion .maxLength),
    ("minItems", .assertion .minItems),
    ("minLength", .assertion .minLength),
    ("pattern", .assertion .pattern),
    ("patternProperties", .applicator .patternProperties),
    ("uniqueItems", .assertion .uniqueItems)]

/-- The keywords of the oldest drafts. -/
def bounded : List (String × Rule) :=
  [("additionalItems", .applicator .additionalItems),
    ("items", .applicator .itemsOfObject),
    ("maximum", .assertion .maximumOrBelow),
    ("minimum", .assertion .minimumOrAbove)]

/-- The keywords since draft 4. -/
def combined : List (String × Rule) :=
  [("allOf", .applicator .allOf),
    ("anyOf", .applicator .anyOf),
    ("maxProperties", .assertion .maxProperties),
    ("minProperties", .assertion .minProperties),
    ("multipleOf", .assertion .multipleOf),
    ("not", .applicator .not),
    ("oneOf", .applicator .oneOf),
    ("properties", .applicator .properties),
    ("required", .assertion .required),
    ("type", .assertion .type)]

/-- The keywords since draft 6. -/
def exclusive : List (String × Rule) :=
  [("const", .assertion .const),
    ("exclusiveMaximum", .assertion .exclusiveMaximum),
    ("exclusiveMinimum", .assertion .exclusiveMinimum),
    ("maximum", .assertion .maximum),
    ("minimum", .assertion .minimum),
    ("propertyNames", .applicator .propertyNames)]

/-- The keywords since 2019. -/
def dependent : List (String × Rule) :=
  [("contains", .applicator .containsCounted),
    ("dependentRequired", .assertion .dependentRequired),
    ("dependentSchemas", .applicator .dependentSchemas),
    ("if", .applicator .ifThenElse),
    ("unevaluatedItems", .applicator .unevaluatedItems),
    ("unevaluatedProperties", .applicator .unevaluatedProperties)]

/-- The keywords of a draft. -/
def keywords : Draft → List (String × Rule)
  | draft3 => common ++ bounded ++
    [("dependencies", .applicator .dependenciesOrName),
      ("disallow", .applicator .disallow),
      ("divisibleBy", .assertion .multipleOf),
      ("extends", .applicator .extends),
      ("properties", .applicator .propertiesWithRequired),
      ("type", .applicator .typeOrSchema)]
  | draft4 => common ++ bounded ++ combined ++ [("dependencies", .applicator .dependencies)]
  | draft6 => common ++ combined ++ exclusive ++
    [("additionalItems", .applicator .additionalItems),
      ("contains", .applicator .contains),
      ("dependencies", .applicator .dependencies),
      ("items", .applicator .items)]
  | draft7 => common ++ combined ++ exclusive ++
    [("additionalItems", .applicator .additionalItems),
      ("contains", .applicator .contains),
      ("dependencies", .applicator .dependencies),
      ("if", .applicator .ifThenElse),
      ("items", .applicator .items)]
  | draft2019 => common ++ combined ++ exclusive ++ dependent ++
    [("$recursiveRef", .applicator .recursiveRef),
      ("additionalItems", .applicator .additionalItems),
      ("items", .applicator .items)]
  | draft2020 => common ++ combined ++ exclusive ++ dependent ++
    [("$dynamicRef", .applicator .dynamicRef),
      ("items", .applicator .itemsAfterPrefix),
      ("prefixItems", .applicator .prefixItems)]

/-- What a keyword does under a draft; unknown keywords do nothing. -/
def rule? (d : Draft) (keyword : String) : Option Rule := d.keywords.lookup keyword

/-! ## Types -/

/-- Whether a value is of a named type; none if the draft has no such type. -/
def isType? (d : Draft) (name : String) (v : Json) : Option Bool :=
  match name, v with
  | "array", .arr _ => some true
  | "boolean", .bool _ => some true
  | "integer", .int _ => some true
  | "integer", .float x => some (!d.isOldest && x.isWhole)
  | "null", .null => some true
  | "number", .int _ => some true
  | "number", .float _ => some true
  | "object", .obj _ => some true
  | "string", .str _ => some true
  | "any", _ => if d = draft3 then some true else none
  | name, _ =>
    if name ∈ ["array", "boolean", "integer", "null", "number", "object", "string"] then some false
    else none

/-! ## Places of schemas inside a schema -/

/-- The keywords whose value is, or holds, schemas: as the value itself, as the items of an array or as
the values of an object. -/
structure Places where
  inValue : List String
  inArray : List String
  inMembers : List String

/-- The places of schemas under a draft. -/
def places : Draft → Places
  | draft3 => ⟨[], ["extends"], ["definitions", "patternProperties", "properties"]⟩
  | draft4 =>
    ⟨["not"], ["allOf", "anyOf", "oneOf"], ["definitions", "patternProperties", "properties"]⟩
  | draft6 =>
    ⟨["additionalItems", "additionalProperties", "contains", "not", "propertyNames"],
      ["allOf", "anyOf", "oneOf"], ["definitions", "patternProperties", "properties"]⟩
  | draft7 =>
    ⟨["additionalItems", "additionalProperties", "contains", "else", "if", "not", "propertyNames",
        "then"],
      ["allOf", "anyOf", "oneOf"], ["definitions", "patternProperties", "properties"]⟩
  | draft2019 =>
    ⟨["additionalItems", "additionalProperties", "contains", "contentSchema", "else", "if", "not",
        "propertyNames", "then", "unevaluatedItems", "unevaluatedProperties"],
      ["allOf", "anyOf", "oneOf"],
      ["$defs", "definitions", "dependentSchemas", "patternProperties", "properties"]⟩
  | draft2020 =>
    ⟨["additionalProperties", "contains", "contentSchema", "else", "if", "items", "not",
        "propertyNames", "then", "unevaluatedItems", "unevaluatedProperties"],
      ["allOf", "anyOf", "oneOf", "prefixItems"],
      ["$defs", "definitions", "dependentSchemas", "patternProperties", "properties"]⟩

/-- Keywords whose value is a schema only if it is an object, or holds schemas otherwise. -/
def eitherPlaces : Draft → List String
  | draft3 | draft4 => ["items", "dependencies", "additionalItems", "additionalProperties"]
  | draft6 | draft7 => ["items", "dependencies"]
  | draft2019 => ["items"]
  | draft2020 => []

/-- A draft is found under its own name. -/
theorem ofUri?_uri (d : Draft) : ofUri? d.uri = some d := by
  cases d <;> decide +kernel

end Draft

end DocDesk.Schema
