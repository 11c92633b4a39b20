import DocDesk.Schema.Applicator.Combination
import DocDesk.Schema.Applicator.Item
import DocDesk.Schema.Applicator.Leftover
import DocDesk.Schema.Applicator.Member
import DocDesk.Schema.Applicator.Type

/-!
# Keywords that apply schemas

Every keyword that hands a value, or its parts, on to other schemas, with what it does.

Main definition: `findings`.
-/

namespace DocDesk.Schema.Applicator

/-- What a keyword that applies schemas finds. -/
def findings (t : Task) : Applicator → Findings
  | .ref | .dynamicRef => t.reference
  | .recursiveRef => t.recursive
  | .allOf => .ofExcept do return .each (← Shape.items t.site.argument) t.here
  | .anyOf => t.anyOf
  | .oneOf => t.oneOf
  | .not => t.notValid
  | .ifThenElse => t.condition
  | .properties => t.properties
  | .propertiesWithRequired => t.propertiesWithRequired
  | .patternProperties => t.patternProperties
  | .additionalProperties => t.additionalProperties
  | .propertyNames => t.propertyNames
  | .items => t.items
  | .itemsOfObject => t.itemsOfObject
  | .itemsAfterPrefix => t.itemsAfterPrefix
  | .prefixItems => t.prefixItems
  | .additionalItems => t.additionalItems
  | .contains => t.contains
  | .containsCounted => t.containsCounted
  | .dependencies => t.dependencies
  | .dependenciesOrName => t.dependenciesOrName
  | .dependentSchemas => t.dependentSchemas
  | .unevaluatedItems => t.unevaluatedItems
  | .unevaluatedProperties => t.unevaluatedProperties
  | .extends => t.extending
  | .typeOrSchema => t.typeOrSchema
  | .disallow => t.disallow

end DocDesk.Schema.Applicator
