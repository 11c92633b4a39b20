import DocDesk.Json.Writer
import DocDesk.Number.Decimal

/-!
# Samples

The sample document of the query panel, the examples and forms that the guide shows, and the sample
schema with a document that it accepts.
-/

namespace DocDesk.Sample

/-- A price in whole hundredths. -/
def price (hundredths : Nat) : Json := .float (.ofDecimal false ⟨hundredths, -2⟩)

/-- A book of the sample store. -/
def book (category author title : String) (isbn : Option String) (hundredths : Nat) (inStock : Bool) :
    Json :=
  .obj ([("category", .str category), ("author", .str author), ("title", .str title)]
    ++ (isbn.map fun s => ("isbn", .str s)).toList
    ++ [("price", price hundredths), ("inStock", .bool inStock)])

/-- The sample document. -/
def document : Json :=
  .obj [("store", .obj [
    ("book", .arr [
      book "reference" "Nigel Rees" "Sayings of the Century" none 895 true,
      book "fiction" "Evelyn Waugh" "Sword of Honour" none 1299 false,
      book "fiction" "Herman Melville" "Moby Dick" (some "0-553-21311-3") 899 true,
      book "fiction" "J. R. R. Tolkien" "The Lord of the Rings" (some "0-395-19395-8") 2299 true]),
    ("bicycle", .obj [("color", .str "red"), ("price", price 1995)])])]

/-- Example queries on the sample document, with what they return. -/
def queryExamples : List (String × String) :=
  [("$", "The whole document"),
    ("$.store", "The store object"),
    ("$.store.book[*]", "All books"),
    ("$.store.book[0]", "The first book"),
    ("$.store.book[*].title", "Every book title"),
    ("$.store.book[?(@.inStock==true)]", "Books in stock"),
    ("$.store.book[?(@.price<10)]", "Books cheaper than 10"),
    ("$.store.book[?(@.category=='fiction')]", "Fiction books"),
    ("$.store.bicycle.color", "The bicycle colour")]

/-- The forms of a query, with their meaning. -/
def queryForms : List (String × String) :=
  [("$", "Root object"),
    ("$.field", "Child field"),
    ("$.list[0]", "List element by index"),
    ("$.list[*]", "All list elements"),
    ("$.list[?(@.field==value)]", "Filter elements (==, !=, <, >)")]

/-- The sample schema. -/
def schema : Json :=
  let text : String × Json := ("type", .str "string")
  .obj [
    ("$schema", .str "http://json-schema.org/draft-07/schema#"),
    ("type", .str "object"),
    ("required", .arr [.str "name", .str "email", .str "age"]),
    ("properties", .obj [
      ("name", .obj [text, ("minLength", .int 1)]),
      ("email", .obj [text, ("format", .str "email")]),
      ("age", .obj [("type", .str "integer"), ("minimum", .int 0)]),
      ("tags", .obj [("type", .str "array"), ("items", .obj [text])])]),
    ("additionalProperties", .bool false)]

/-- A document that the sample schema accepts. -/
def schemaData : Json :=
  .obj [
    ("name", .str "Ada Lovelace"),
    ("email", .str "ada@example.com"),
    ("age", .int 36),
    ("tags", .arr [.str "math", .str "computing"])]

end DocDesk.Sample
