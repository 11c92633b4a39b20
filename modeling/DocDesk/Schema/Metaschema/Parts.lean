import DocDesk.Json.Basic
import DocDesk.Schema.Draft

/-!
# Parts of schemas

Short names for the schemas that the schemas of the drafts are made of: types, references, bounds and
choices.
-/

namespace DocDesk.Schema.Metaschema

/-- An object. -/
abbrev Members := List (String × Json)

/-- A schema that refers to another one. -/
def refTo (reference : String) : Json := .obj [("$ref", .str reference)]

/-- A schema that refers to the root of the document. -/
def whole : Json := refTo "#"

/-- A type. -/
def ofType (name : String) : String × Json := ("type", .str name)

/-- A schema of a type, with further keywords. -/
def typed (name : String) (more : Members := []) : Json := .obj (ofType name :: more)

/-- A default value. -/
def defaultOf (v : Json) : String × Json := ("default", v)

/-- The empty object as a default value. -/
def defaultEmpty : String × Json := defaultOf (.obj [])

/-- Texts of a format. -/
def formatted (name : String) : Json := typed "string" [("format", .str name)]

/-- A schema for one of several schemas. -/
def anyOf (schemas : List Json) (more : Members := []) : Json :=
  .obj (("anyOf", .arr schemas) :: more)

/-- An array of schemas. -/
def arrayOf (item : Json) (more : Members := []) : Json := typed "array" (("items", item) :: more)

/-- An object whose values are of a schema. -/
def objectOf (value : Json) (more : Members := []) : Json :=
  typed "object" (("additionalProperties", value) :: more)

/-- At least one item. -/
def nonEmpty : String × Json := ("minItems", .int 1)

/-- Items that all differ. -/
def unique : String × Json := ("uniqueItems", .bool true)

/-- No less than zero. -/
def fromZero : String × Json := ("minimum", .int 0)

/-- The names of the types. -/
def typeNames : Json :=
  .arr (["array", "boolean", "integer", "null", "number", "object", "string"].map .str)

/-- The types of a schema: an object or a boolean. -/
def objectOrBoolean : String × Json := ("type", .arr [.str "object", .str "boolean"])

/-- Non-empty arrays of schemas. -/
def schemaArray (item : Json) : Json := .obj [ofType "array", nonEmpty, ("items", item)]

/-- A type name, or an array of different type names. -/
def typeOrTypes (simple : Json) : Json := anyOf [simple, arrayOf simple [nonEmpty, unique]]

/-- A flag that is off by default. -/
def flag : Json := typed "boolean" [defaultOf (.bool false)]

/-- Several names with one value. -/
def sharing (names : List String) (value : Json) : Members := names.map fun n => (n, value)

end DocDesk.Schema.Metaschema
