import DocDesk.Schema.Metaschema.Parts

/-!
# The schemas of drafts 2019-09 and 2020-12

Each is the sum of several vocabularies.  A vocabulary refers to the whole schema that it is used in by a
reference that is resolved where the check started.

Main definitions: `draft2019` and `draft2020`.
-/

namespace DocDesk.Schema.Metaschema

/-! ## What the two drafts share -/

/-- A definition of this document. -/
def localDefinition (name : String) : Json := refTo ("#/$defs/" ++ name)

/-- Lower and upper bounds on a number of parts. -/
def modernSizes (noun : String) : Members :=
  [("max" ++ noun, localDefinition "nonNegativeInteger"),
    ("min" ++ noun, localDefinition "nonNegativeIntegerDefault0")]

/-- The keywords about numbers, texts, arrays and the names of members. -/
def modernBounds : Members :=
  [("multipleOf", typed "number" [("exclusiveMinimum", .int 0)])]
    ++ sharing ["maximum", "exclusiveMaximum", "minimum", "exclusiveMinimum"] (typed "number")
    ++ modernSizes "Length" ++
    [("pattern", formatted "regex")]
    ++ modernSizes "Items" ++
    [("uniqueItems", flag),
      ("maxContains", localDefinition "nonNegativeInteger"),
      ("minContains",
        .obj [("$ref", .str "#/$defs/nonNegativeInteger"), defaultOf (.int 1)])]
    ++ modernSizes "Properties" ++
    [("required", localDefinition "stringArray"),
      ("dependentRequired", objectOf (localDefinition "stringArray"))]

/-- The keywords about given values. -/
def modernValues : Members :=
  [("const", .bool true), ("enum", arrayOf (.bool true))]

/-- The keyword about types. -/
def modernType : Members := [("type", typeOrTypes (localDefinition "simpleTypes"))]

/-- The definitions of the vocabulary of validation. -/
def modernDefinitions : String × Json := ("$defs", .obj [
  ("nonNegativeInteger", typed "integer" [fromZero]),
  ("nonNegativeIntegerDefault0",
    .obj [("$ref", .str "#/$defs/nonNegativeInteger"), defaultOf (.int 0)]),
  ("simpleTypes", .obj [("enum", typeNames)]),
  ("stringArray", arrayOf (typed "string") [unique, defaultOf (.arr [])])])

/-- The keywords that only describe. -/
def modernNotes : Json := .obj [
  ("title", typed "string"),
  ("description", typed "string"),
  ("default", .bool true),
  ("deprecated", flag),
  ("readOnly", flag),
  ("writeOnly", flag),
  ("examples", arrayOf (.bool true))]

/-- The keyword about formats. -/
def modernFormat : Json := .obj [("format", typed "string")]

/-- Members that are schemas, with patterns as their names. -/
def patternMembers (schema : Json) : Json :=
  objectOf schema [("propertyNames", .obj [("format", .str "regex")]), defaultEmpty]

/-- The definition of non-empty arrays of schemas. -/
def arrayDefinition (schema : Json) : String × Json :=
  ("$defs", .obj [("schemaArray", schemaArray schema)])

/-! ## Draft 2019-09 -/

/-- The whole schema that a vocabulary is used in. -/
def recursive : Json := .obj [("$recursiveRef", .str "#")]

/-- A vocabulary of draft 2019-09. -/
def vocabulary2019 (name title : String) (properties : Json) (more : Members := []) : Json :=
  .obj ([("$schema", .str "https://json-schema.org/draft/2019-09/schema"),
    ("$id", .str ("https://json-schema.org/draft/2019-09/meta/" ++ name)),
    ("$vocabulary",
      .obj [("https://json-schema.org/draft/2019-09/vocab/" ++ name, .bool true)]),
    ("$recursiveAnchor", .bool true),
    ("title", .str title),
    objectOrBoolean,
    ("properties", properties)] ++ more)

/-- Names, references and definitions in draft 2019-09. -/
def core2019 : Json := .obj [
  ("$id", .obj [ofType "string", ("format", .str "uri-reference"),
    ("$comment", .str "Non-empty fragments not allowed."), ("pattern", .str "^[^#]*#?$")]),
  ("$schema", formatted "uri"),
  ("$anchor", .obj [ofType "string", ("pattern", .str "^[A-Za-z][-A-Za-z0-9.:_]*$")]),
  ("$ref", formatted "uri-reference"),
  ("$recursiveRef", formatted "uri-reference"),
  ("$recursiveAnchor", flag),
  ("$vocabulary", typed "object" [("propertyNames", formatted "uri"),
    ("additionalProperties", typed "boolean")]),
  ("$comment", typed "string"),
  ("$defs", objectOf recursive [defaultEmpty])]

/-- Keywords that apply schemas in draft 2019-09. -/
def applicator2019 : Json := .obj (
  sharing ["additionalItems", "unevaluatedItems"] recursive ++
  [("items", anyOf [recursive, localDefinition "schemaArray"])]
  ++ sharing ["contains", "additionalProperties", "unevaluatedProperties"] recursive ++
  [("properties", objectOf recursive [defaultEmpty]),
    ("patternProperties", patternMembers recursive),
    ("dependentSchemas", objectOf recursive)]
  ++ sharing ["propertyNames", "if", "then", "else"] recursive
  ++ sharing ["allOf", "anyOf", "oneOf"] (localDefinition "schemaArray") ++
  [("not", recursive)])

/-- The vocabularies of draft 2019-09. -/
def vocabularies2019 : List Json := [
  vocabulary2019 "core" "Core vocabulary meta-schema" core2019,
  vocabulary2019 "applicator" "Applicator vocabulary meta-schema" applicator2019
    [arrayDefinition recursive],
  vocabulary2019 "validation" "Validation vocabulary meta-schema"
    (.obj (modernBounds ++ modernValues ++ modernType)) [modernDefinitions],
  vocabulary2019 "meta-data" "Meta-data vocabulary meta-schema" modernNotes,
  vocabulary2019 "format" "Format vocabulary meta-schema" modernFormat,
  vocabulary2019 "content" "Content vocabulary meta-schema"
    (.obj [("contentMediaType", typed "string"), ("contentEncoding", typed "string"),
      ("contentSchema", recursive)])]

/-- The schema of draft 2019-09. -/
def draft2019 : Json :=
  let names := ["core", "applicator", "validation", "meta-data", "format", "content"]
  .obj [
    ("$schema", .str "https://json-schema.org/draft/2019-09/schema"),
    ("$id", .str "https://json-schema.org/draft/2019-09/schema"),
    ("$vocabulary", .obj (names.map fun n =>
      ("https://json-schema.org/draft/2019-09/vocab/" ++ n, .bool (n ≠ "format")))),
    ("$recursiveAnchor", .bool true),
    ("title", .str "Core and Validation specifications meta-schema"),
    ("allOf", .arr (names.map fun n => refTo ("meta/" ++ n))),
    objectOrBoolean,
    ("properties", .obj [
      ("definitions", .obj [
        ("$comment", .str ("While no longer an official keyword as it is replaced by $defs, "
          ++ "this keyword is retained in the meta-schema to prevent incompatible extensions "
          ++ "as it remains in common use.")),
        ofType "object", ("additionalProperties", recursive), defaultEmpty]),
      ("dependencies", .obj [
        ("$comment", .str ("\"dependencies\" is no longer a keyword, but schema authors should "
          ++ "avoid redefining it to facilitate a smooth transition to \"dependentSchemas\" and "
          ++ "\"dependentRequired\"")),
        ofType "object",
        ("additionalProperties",
          anyOf [recursive, refTo "meta/validation#/$defs/stringArray"])])])]

/-! ## Draft 2020-12 -/

/-- The whole schema that a vocabulary is used in. -/
def dynamic : Json := .obj [("$dynamicRef", .str "#meta")]

/-- A vocabulary of draft 2020-12. -/
def vocabulary2020 (name title : String) (properties : Json) (more : Members := []) : Json :=
  .obj ([("$schema", .str "https://json-schema.org/draft/2020-12/schema"),
    ("$id", .str ("https://json-schema.org/draft/2020-12/meta/" ++ name)),
    ("$vocabulary",
      .obj [("https://json-schema.org/draft/2020-12/vocab/" ++ name, .bool true)]),
    ("$dynamicAnchor", .str "meta"),
    ("title", .str title),
    objectOrBoolean,
    ("properties", properties)] ++ more)

/-- Names, references and definitions in draft 2020-12. -/
def core2020 : Json := .obj [
  ("$id", .obj [("$ref", .str "#/$defs/uriReferenceString"),
    ("$comment", .str "Non-empty fragments not allowed."), ("pattern", .str "^[^#]*#?$")]),
  ("$schema", localDefinition "uriString"),
  ("$ref", localDefinition "uriReferenceString"),
  ("$anchor", localDefinition "anchorString"),
  ("$dynamicRef", localDefinition "uriReferenceString"),
  ("$dynamicAnchor", localDefinition "anchorString"),
  ("$vocabulary", typed "object" [("propertyNames", localDefinition "uriString"),
    ("additionalProperties", typed "boolean")]),
  ("$comment", typed "string"),
  ("$defs", objectOf dynamic)]

/-- The definitions of the core of draft 2020-12. -/
def coreDefinitions2020 : String × Json := ("$defs", .obj [
  ("anchorString", typed "string" [("pattern", .str "^[A-Za-z_][-A-Za-z0-9._]*$")]),
  ("uriString", formatted "uri"),
  ("uriReferenceString", formatted "uri-reference")])

/-- Keywords that apply schemas in draft 2020-12. -/
def applicator2020 : Json := .obj (
  [("prefixItems", localDefinition "schemaArray")]
  ++ sharing ["items", "contains", "additionalProperties"] dynamic ++
  [("properties", objectOf dynamic [defaultEmpty]),
    ("patternProperties", patternMembers dynamic),
    ("dependentSchemas", objectOf dynamic [defaultEmpty])]
  ++ sharing ["propertyNames", "if", "then", "else"] dynamic
  ++ sharing ["allOf", "anyOf", "oneOf"] (localDefinition "schemaArray") ++
  [("not", dynamic)])

/-- The vocabularies of draft 2020-12. -/
def vocabularies2020 : List Json := [
  vocabulary2020 "core" "Core vocabulary meta-schema" core2020 [coreDefinitions2020],
  vocabulary2020 "applicator" "Applicator vocabulary meta-schema" applicator2020
    [arrayDefinition dynamic],
  vocabulary2020 "unevaluated" "Unevaluated applicator vocabulary meta-schema"
    (.obj (sharing ["unevaluatedItems", "unevaluatedProperties"] dynamic)),
  vocabulary2020 "validation" "Validation vocabulary meta-schema"
    (.obj (modernType ++ modernValues ++ modernBounds)) [modernDefinitions],
  vocabulary2020 "meta-data" "Meta-data vocabulary meta-schema" modernNotes,
  vocabulary2020 "format-annotation"
    "Format vocabulary meta-schema for annotation results" modernFormat,
  vocabulary2020 "content" "Content vocabulary meta-schema"
    (.obj [("contentEncoding", typed "string"), ("contentMediaType", typed "string"),
      ("contentSchema", dynamic)])]

/-- The schema of draft 2020-12. -/
def draft2020 : Json :=
  let names := ["core", "applicator", "unevaluated", "validation", "meta-data", "format-annotation",
    "content"]
  .obj [
    ("$schema", .str "https://json-schema.org/draft/2020-12/schema"),
    ("$id", .str "https://json-schema.org/draft/2020-12/schema"),
    ("$vocabulary", .obj (names.map fun n =>
      ("https://json-schema.org/draft/2020-12/vocab/" ++ n, .bool true))),
    ("$dynamicAnchor", .str "meta"),
    ("title", .str "Core and Validation specifications meta-schema"),
    ("allOf", .arr (names.map fun n => refTo ("meta/" ++ n))),
    objectOrBoolean,
    ("$comment", .str ("This meta-schema also defines keywords that have appeared in previous "
      ++ "drafts in order to prevent incompatible extensions as they remain in common use.")),
    ("properties", .obj [
      ("definitions", .obj [
        ("$comment", .str "\"definitions\" has been replaced by \"$defs\"."),
        ofType "object", ("additionalProperties", dynamic), ("deprecated", .bool true),
        defaultEmpty]),
      ("dependencies", .obj [
        ("$comment", .str ("\"dependencies\" has been split and replaced by \"dependentSchemas\" "
          ++ "and \"dependentRequired\" in order to serve their differing semantics.")),
        ofType "object",
        ("additionalProperties", anyOf [dynamic, refTo "meta/validation#/$defs/stringArray"]),
        ("deprecated", .bool true), defaultEmpty]),
      ("$recursiveAnchor", .obj [
        ("$comment", .str "\"$recursiveAnchor\" has been replaced by \"$dynamicAnchor\"."),
        ("$ref", .str "meta/core#/$defs/anchorString"), ("deprecated", .bool true)]),
      ("$recursiveRef", .obj [
        ("$comment", .str "\"$recursiveRef\" has been replaced by \"$dynamicRef\"."),
        ("$ref", .str "meta/core#/$defs/uriReferenceString"), ("deprecated", .bool true)])])]

end DocDesk.Schema.Metaschema
