import DocDesk.Proofs.Schema.Atlas
import DocDesk.Schema.Validation

/-!
# The check of a schema ends

The schema of every draft refers to itself wherever a schema holds another one, and so only through a part
of the schema that is checked: a member, or an item of a list of schemas.  Whatever document is checked
against it, the check comes to its end, as long as the document does not nest too deep and its texts can be
told to be patterns or none.

Main statements: `Draft.complete_metaschema` and `checkSchema_ends`.
-/

namespace DocDesk.Schema

namespace Draft

/-! ## Places in the schemas of the drafts -/

/-- A place in a schema, by the names of the way to it. -/
def placeAt (uri pointer : String) (rank : Nat) : Landmark := ⟨uri, pointer.toList, rank⟩

/-- The definitions of a resource, with the number of checks that may nest at each. -/
def definitionsAt (uri keyword : String) (names : List (String × Nat)) : List Landmark :=
  names.map fun p => placeAt uri ("/" ++ keyword ++ "/" ++ p.1) p.2

/-- The atlas of a draft whose schema is a single resource. -/
def singleAtlas (d : Draft) (names : List (String × Nat)) : Atlas where
  draft := d
  root := d.uri
  documents := [(d.uri, d.metaschema.contents)]
  landmarks := placeAt d.uri "" 1 :: definitionsAt d.uri "definitions" names
  isRecursive := false
  isDynamic := false

/-- The definitions of drafts 4, 6 and 7; one about numbers refers to the other. -/
def olderDefinitions (number : String) : List (String × Nat) :=
  [("schemaArray", 1), (number, 1), (number ++ "Default0", 3), ("simpleTypes", 1), ("stringArray", 1)]

/-- The names of vocabularies. -/
def vocabularyUri (edition name : String) : String :=
  "https://json-schema.org/draft/" ++ edition ++ "/meta/" ++ name

/-- The atlas of a draft whose schema is the sum of vocabularies. -/
def modernAtlas (d : Draft) (edition : String) (names : List String) (vocabularies : List Json)
    (more : List Landmark) : Atlas where
  draft := d
  root := d.uri
  documents := (d.uri, d.metaschema.contents) :: (names.map (vocabularyUri edition)).zip vocabularies
  landmarks := placeAt d.uri "" 3 :: names.map (fun n => placeAt (vocabularyUri edition n) "" 1) ++
    definitionsAt (vocabularyUri edition "applicator") "$defs" [("schemaArray", 1)] ++
    definitionsAt (vocabularyUri edition "validation") "$defs"
      [("nonNegativeInteger", 1), ("nonNegativeIntegerDefault0", 2), ("simpleTypes", 1),
        ("stringArray", 1)] ++ more
  isRecursive := d = draft2019
  isDynamic := d = draft2020

/-- The atlas of the schema of a draft. -/
def atlas : Draft → Atlas
  | draft3 => singleAtlas draft3 []
  | draft4 => singleAtlas draft4 (olderDefinitions "positiveInteger")
  | draft6 => singleAtlas draft6 (olderDefinitions "nonNegativeInteger")
  | draft7 => singleAtlas draft7 (olderDefinitions "nonNegativeInteger")
  | draft2019 =>
    modernAtlas draft2019 "2019-09"
      ["core", "applicator", "validation", "meta-data", "format", "content"]
      Metaschema.vocabularies2019 []
  | draft2020 =>
    modernAtlas draft2020 "2020-12"
      ["core", "applicator", "unevaluated", "validation", "meta-data", "format-annotation", "content"]
      Metaschema.vocabularies2020
      (definitionsAt (vocabularyUri "2020-12" "core") "$defs"
        [("anchorString", 1), ("uriString", 1), ("uriReferenceString", 1)])

/-- The library of the schema of a draft. -/
def library (d : Draft) : Library := .ofRoot d.metaschema

/-! ## The atlases are right -/

/-- The atlas of an older draft passes the check. -/
theorem isCharted_old {d : Draft} (h : d.isOld = true) : d.atlas.isCharted d.library = true := by
  cases d with
  | draft3 => decide +kernel
  | draft4 => decide +kernel
  | draft6 => decide +kernel
  | draft7 => decide +kernel
  | draft2019 | draft2020 => cases h

/-- That of draft 2019-09 does, with its recursive references. -/
theorem isCharted_draft2019 : draft2019.atlas.isCharted draft2019.library = true := by decide +kernel

/-- That of draft 2020-12 does, with its dynamic references. -/
theorem isCharted_draft2020 : draft2020.atlas.isCharted draft2020.library = true := by decide +kernel

/-- The library of a draft knows its atlas. -/
theorem charted_atlas (d : Draft) : d.atlas.Charted d.library := by
  refine Atlas.charted_of_isCharted ?_
  cases d with
  | draft3 | draft4 | draft6 | draft7 => exact isCharted_old rfl
  | draft2019 => exact isCharted_draft2019
  | draft2020 => exact isCharted_draft2020

/-- The atlas of a draft is about the draft. -/
theorem draft_atlas (d : Draft) : d.atlas.draft = d := by
  cases d <;> rfl

/-- Its root is the schema of the draft. -/
theorem root_atlas (d : Draft) : d.atlas.root = d.uri := by
  cases d <;> rfl

/-- The root is among its schemas. -/
theorem mem_documents_atlas (d : Draft) : (d.uri, d.metaschema.contents) ∈ d.atlas.documents := by
  cases d <;> exact List.mem_cons_self

/-- Few checks nest at the root. -/
theorem lists_atlas (d : Draft) : d.atlas.lists 3 (d.uri, []) = true := by
  cases d <;> decide +kernel

/-- The schema of a draft names itself. -/
theorem name?_metaschema (d : Draft) : d.metaschema.name? = some d.uri := by
  cases d <;> decide +kernel

end Draft

/-- How deep a schema may nest for its check to end in any case. -/
def checkedDepth : Nat := (nestingLimit - 3) / Atlas.span

/-- Against the schema of a draft the check of every value ends that does not nest too deep and whose
texts can be told to be patterns or none. -/
theorem Draft.complete_metaschema (d : Draft) {v : Json} (hdepth : v.depth ≤ checkedDepth)
    (htexts : v.Everywhere (hasToldTexts · = true)) : (findings d.metaschema v).Complete := by
  have hdata : Within Atlas.known checkedDepth v := ⟨hdepth, fun _ => htexts, nofun⟩
  have hname : d.metaschema.name? = some d.atlas.root := by rw [root_atlas, name?_metaschema]
  have hmem : (d.atlas.root, d.metaschema.contents) ∈ d.atlas.documents := by
    rw [root_atlas]
    exact d.mem_documents_atlas
  have hlists : d.atlas.lists 3 (d.atlas.root, []) = true := by rw [root_atlas, lists_atlas]
  exact d.charted_atlas.complete_findings d.draft_atlas.symm hname hmem hlists hdata (by decide)

/-- The check of a schema comes out. -/
theorem checkSchema_ends (d : Draft) {schema : Json} (hdepth : schema.depth ≤ checkedDepth)
    (htexts : schema.Everywhere (hasToldTexts · = true)) :
    checkSchema d schema = .ok () ∨ ∃ i, checkSchema d schema = .error (.invalid i) := by
  unfold checkSchema
  have hcomplete := d.complete_metaschema hdepth htexts
  generalize findings d.metaschema schema = fs at hcomplete ⊢
  cases hcomplete with
  | done => exact .inl rfl
  | found => exact .inr ⟨_, rfl⟩

end DocDesk.Schema
