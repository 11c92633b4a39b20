import DocDesk.Schema.Metaschema.Parts

/-!
# The schemas of drafts 3 to 7

The schemas that schemas of the older drafts are checked against.  The order of keywords matters: the
first issue is the one that is told.

Main definitions: `draft3`, `draft4`, `draft6` and `draft7`.
-/

namespace DocDesk.Schema.Metaschema

/-! ## Draft 3 -/

/-- A text, or an array of texts and schemas. -/
def draft3Types (more : Members) : Json :=
  .obj ([("type", .arr [.str "string", .str "array"]),
    ("items", .obj [("type", .arr [.str "string", whole])]), unique] ++ more)

/-- A schema or a value of a type. -/
def draft3SchemaOr (type : String) (more : Members := []) : Json :=
  .obj ([("type", .arr [whole, .str type])] ++ more ++ [defaultEmpty])

/-- The schema of draft 3. -/
def draft3 : Json := .obj [
  ("$schema", .str "http://json-schema.org/draft-03/schema#"),
  ("id", .str "http://json-schema.org/draft-03/schema#"),
  ofType "object",
  ("properties", .obj [
    ("type", draft3Types [defaultOf (.str "any")]),
    ("properties",
      objectOf (.obj [("$ref", .str "#"), ofType "object"]) [defaultEmpty]),
    ("patternProperties", objectOf whole [defaultEmpty]),
    ("additionalProperties", draft3SchemaOr "boolean"),
    ("items", draft3SchemaOr "array" [("items", whole)]),
    ("additionalItems", draft3SchemaOr "boolean"),
    ("required", flag),
    ("dependencies",
      objectOf
        (.obj [("type", .arr [.str "string", .str "array", whole]), ("items", typed "string")])
        [defaultEmpty]),
    ("minimum", typed "number"),
    ("maximum", typed "number"),
    ("exclusiveMinimum", flag),
    ("exclusiveMaximum", flag),
    ("minItems", typed "integer" [fromZero, defaultOf (.int 0)]),
    ("maxItems", typed "integer" [fromZero]),
    ("uniqueItems", flag),
    ("pattern", formatted "regex"),
    ("minLength", typed "integer" [fromZero, defaultOf (.int 0)]),
    ("maxLength", typed "integer"),
    ("enum", typed "array" [nonEmpty, unique]),
    ("default", typed "any"),
    ("title", typed "string"),
    ("description", typed "string"),
    ("format", typed "string"),
    ("divisibleBy",
      typed "number" [fromZero, ("exclusiveMinimum", .bool true), defaultOf (.int 1)]),
    ("disallow", draft3Types []),
    ("extends", draft3SchemaOr "array" [("items", whole)]),
    ("id", typed "string"),
    ("$ref", typed "string"),
    ("$schema", formatted "uri")]),
  ("dependencies", .obj [
    ("exclusiveMinimum", .str "minimum"),
    ("exclusiveMaximum", .str "maximum")]),
  defaultEmpty]

/-! ## Draft 4 -/

/-- A definition of this document. -/
def definition (name : String) : Json := refTo ("#/definitions/" ++ name)

/-- A number of parts, zero by default. -/
def defaultZero (bound : String) : Json :=
  .obj [("allOf", .arr [definition bound, .obj [defaultOf (.int 0)]])]

/-- A boolean or a schema. -/
def booleanOrSchema : Json := anyOf [typed "boolean", whole] [defaultEmpty]

/-- Lower and upper bounds on a number of parts, by the names of their definitions. -/
def sizes (noun bound bound0 : String) : Members :=
  [("max" ++ noun, definition bound), ("min" ++ noun, definition bound0)]

/-- The schema of draft 4. -/
def draft4 : Json :=
  let bounds (noun : String) := sizes noun "positiveInteger" "positiveIntegerDefault0"
  .obj [
    ("id", .str "http://json-schema.org/draft-04/schema#"),
    ("$schema", .str "http://json-schema.org/draft-04/schema#"),
    ("description", .str "Core schema meta-schema"),
    ("definitions", .obj [
      ("schemaArray", schemaArray whole),
      ("positiveInteger", typed "integer" [fromZero]),
      ("positiveIntegerDefault0", defaultZero "positiveInteger"),
      ("simpleTypes", .obj [("enum", typeNames)]),
      ("stringArray", arrayOf (typed "string") [nonEmpty, unique])]),
    ofType "object",
    ("properties", .obj (
      [("id", typed "string"),
        ("$schema", typed "string"),
        ("title", typed "string"),
        ("description", typed "string"),
        ("default", .obj []),
        ("multipleOf", typed "number" [fromZero, ("exclusiveMinimum", .bool true)]),
        ("maximum", typed "number"),
        ("exclusiveMaximum", typed "boolean"),
        ("minimum", typed "number"),
        ("exclusiveMinimum", typed "boolean")]
      ++ bounds "Length" ++
      [("pattern", formatted "regex"),
        ("additionalItems", booleanOrSchema),
        ("items", anyOf [whole, definition "schemaArray"] [defaultEmpty])]
      ++ bounds "Items" ++
      [("uniqueItems", flag)]
      ++ bounds "Properties" ++
      [("required", definition "stringArray"),
        ("additionalProperties", booleanOrSchema),
        ("definitions", objectOf whole [defaultEmpty]),
        ("properties", objectOf whole [defaultEmpty]),
        ("patternProperties", objectOf whole [defaultEmpty]),
        ("dependencies", objectOf (anyOf [whole, definition "stringArray"])),
        ("enum", typed "array" [nonEmpty, unique]),
        ("type", typeOrTypes (definition "simpleTypes")),
        ("format", typed "string")]
      ++ sharing ["allOf", "anyOf", "oneOf"] (definition "schemaArray") ++
      [("not", whole)])),
    ("dependencies", .obj [
      ("exclusiveMaximum", .arr [.str "maximum"]),
      ("exclusiveMinimum", .arr [.str "minimum"])]),
    defaultEmpty]

/-! ## Drafts 6 and 7 -/

/-- The definitions of drafts 6 and 7. -/
def laterDefinitions : Json := .obj [
  ("schemaArray", schemaArray whole),
  ("nonNegativeInteger", typed "integer" [fromZero]),
  ("nonNegativeIntegerDefault0", defaultZero "nonNegativeInteger"),
  ("simpleTypes", .obj [("enum", typeNames)]),
  ("stringArray", arrayOf (typed "string") [unique, defaultOf (.arr [])])]

/-- The keywords that drafts 6 and 7 share, from those about numbers to those about properties; `any` is
the schema of every value. -/
def laterMiddle (any : Json) : Members :=
  let bounds (noun : String) := sizes noun "nonNegativeInteger" "nonNegativeIntegerDefault0"
  [("multipleOf", typed "number" [("exclusiveMinimum", .int 0)])]
    ++ sharing ["maximum", "exclusiveMaximum", "minimum", "exclusiveMinimum"] (typed "number")
    ++ bounds "Length" ++
    [("pattern", formatted "regex"),
      ("additionalItems", whole),
      ("items", anyOf [whole, definition "schemaArray"] [defaultOf any])]
    ++ bounds "Items" ++
    [("uniqueItems", flag),
      ("contains", whole)]
    ++ bounds "Properties" ++
    [("required", definition "stringArray"),
      ("additionalProperties", whole),
      ("definitions", objectOf whole [defaultEmpty]),
      ("properties", objectOf whole [defaultEmpty])]

/-- The schemas of dependencies and of names in drafts 6 and 7. -/
def laterDependencies : Members :=
  [("dependencies", objectOf (anyOf [whole, definition "stringArray"])),
    ("propertyNames", whole)]

/-- The combinations of schemas in drafts 6 and 7. -/
def laterCombinations : Members :=
  sharing ["allOf", "anyOf", "oneOf"] (definition "schemaArray") ++ [("not", whole)]

/-- The schema of draft 6. -/
def draft6 : Json := .obj [
  ("$schema", .str "http://json-schema.org/draft-06/schema#"),
  ("$id", .str "http://json-schema.org/draft-06/schema#"),
  ("title", .str "Core schema meta-schema"),
  ("definitions", laterDefinitions),
  objectOrBoolean,
  ("properties", .obj (
    [("$id", formatted "uri-reference"),
      ("$schema", formatted "uri"),
      ("$ref", formatted "uri-reference"),
      ("title", typed "string"),
      ("description", typed "string"),
      ("default", .obj []),
      ("examples", arrayOf (.obj []))]
    ++ laterMiddle (.obj []) ++
    [("patternProperties", objectOf whole [defaultEmpty])]
    ++ laterDependencies ++
    [("const", .obj []),
      ("enum", typed "array"),
      ("type", typeOrTypes (definition "simpleTypes")),
      ("format", typed "string")]
    ++ laterCombinations)),
  defaultEmpty]

/-- The schema of draft 7. -/
def draft7 : Json := .obj [
  ("$schema", .str "http://json-schema.org/draft-07/schema#"),
  ("$id", .str "http://json-schema.org/draft-07/schema#"),
  ("title", .str "Core schema meta-schema"),
  ("definitions", laterDefinitions),
  objectOrBoolean,
  ("properties", .obj (
    [("$id", formatted "uri-reference"),
      ("$schema", formatted "uri"),
      ("$ref", formatted "uri-reference"),
      ("$comment", typed "string"),
      ("title", typed "string"),
      ("description", typed "string"),
      ("default", .bool true),
      ("readOnly", flag),
      ("examples", arrayOf (.bool true))]
    ++ laterMiddle (.bool true) ++
    [("patternProperties",
      objectOf whole [("propertyNames", .obj [("format", .str "regex")]), defaultEmpty])]
    ++ laterDependencies ++
    [("const", .bool true),
      ("enum", arrayOf (.bool true)),
      ("type", typeOrTypes (definition "simpleTypes")),
      ("format", typed "string"),
      ("contentMediaType", typed "string"),
      ("contentEncoding", typed "string")]
    ++ sharing ["if", "then", "else"] whole
    ++ laterCombinations)),
  defaultOf (.bool true)]

end DocDesk.Schema.Metaschema
