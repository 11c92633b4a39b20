import DocDesk.Proofs.Schema.Metaschema

/-!
# Schemas under which every check comes out

A schema is steady for a document if it is none at all, or if its own check ends and, where it passes, it
fits the document: references lead to schemas that fit as well, as far as the document nests.  Then the
document is reported on or the schema is refused in words.  The check of a schema that does not nest too
deep ends in any case.

Main statement: `Steady.answers`.
-/

namespace DocDesk.Schema

/-- A schema fits a document: whatever its keywords hand on to can be checked, through references too, as
deep as the document nests. -/
def Resource.fits (r : Resource) (data : Json) : Bool :=
  Schema.fits (.ofRoot r) (.ofDocument data) nestingLimit data.depth r.draft (.ofRoot r) r.contents

/-- A schema under which a document is answered: none at all; one that does not nest too deep, whose texts
can be told, and that fits if it passes its check; or any other one whose check is known to come out. -/
inductive Steady (schema data : Json) : Prop
  | notASchema : isSchema schema = false → Steady schema data
  | shallow {d : Draft} : isSchema schema = true → draftOf schema .draft7 = .ok d →
      schema.depth ≤ checkedDepth → schema.Everywhere (hasToldTexts · = true) →
      (checkSchema d schema = .ok () → (Resource.mk d schema).fits data = true) → Steady schema data
  | refused {d : Draft} {i : Issue} : isSchema schema = true → draftOf schema .draft7 = .ok d →
      checkSchema d schema = .error (.invalid i) → Steady schema data
  | accepted {d : Draft} : isSchema schema = true → draftOf schema .draft7 = .ok d →
      checkSchema d schema = .ok () → (Resource.mk d schema).fits data = true → Steady schema data

/-- Under a schema that fits a document the check of the document comes to its end. -/
theorem complete_findings {r : Resource} {data : Json} (h : r.fits data = true) :
    (findings r data).Complete :=
  (upheld_fits _ _).complete_walk h ⟨Nat.le_refl _, Known.holds_ofDocument data⟩

/-- A reference fits that leads to a schema that does, and so does the keyword for what that schema leaves
unevaluated. -/
example : (Resource.mk .draft2020 (.obj [("$ref", .str "#/$defs/a"), ("unevaluatedProperties", .bool false),
    ("$defs", .obj [("a", .obj [("properties", .obj [("x", .obj [("type", .str "integer")])])])])])).fits
      (.obj [("x", .int 1), ("y", .null)]) = true := by
  decide +kernel

/-- What a schema finds in a document once its draft is known. -/
theorem validate_of_isSchema {d : Draft} {schema : Json} (hschema : isSchema schema = true)
    (hdraft : draftOf schema .draft7 = .ok d) (data : Json) :
    validate schema data = (checkSchema d schema).map fun _ => findings ⟨d, schema⟩ data := by
  have hstart : validate schema data =
      checkSchema d schema >>= fun _ => pure (findings ⟨d, schema⟩ data) := by
    unfold validate
    rw [hschema, hdraft]
    rfl
  rw [hstart]
  cases checkSchema d schema with
  | error e => rfl
  | ok _ => rfl

/-- A document has a report under a schema that passes its check and fits. -/
theorem exists_report {d : Draft} {schema data : Json} (hschema : isSchema schema = true)
    (hdraft : draftOf schema .draft7 = .ok d) (hcheck : checkSchema d schema = .ok ())
    (h : (Resource.mk d schema).fits data = true) : Succeeds (report schema data) := by
  obtain ⟨entries, hentries⟩ := (complete_findings h).exists_entries
  unfold report
  rw [validate_of_isSchema hschema hdraft, hcheck]
  refine Succeeds.ok.bind fun found hfound => ?_
  cases hfound
  rw [hentries]
  exact Succeeds.ok.bind fun _ _ => .ok

/-- A schema that fails its check is refused in words. -/
theorem exists_message {d : Draft} {schema : Json} {i : Issue} (hschema : isSchema schema = true)
    (hdraft : draftOf schema .draft7 = .ok d) (hcheck : checkSchema d schema = .error (.invalid i))
    (data : Json) : ∃ e message, report schema data = .error e ∧ e.message? = some message := by
  refine ⟨.invalid i, _, ?_, rfl⟩
  rw [report, validate_of_isSchema hschema hdraft, hcheck]
  rfl

/-- A document is reported on, or the schema is refused in words. -/
theorem Steady.answers {schema data : Json} (h : Steady schema data) :
    (∃ r, report schema data = .ok r) ∨
      ∃ e message, report schema data = .error e ∧ e.message? = some message := by
  cases h with
  | notASchema hschema =>
    refine .inr ⟨.notASchema, _, ?_, rfl⟩
    rw [report, validate_notASchema hschema]
    rfl
  | @shallow d hschema hdraft hdepth htexts hfits =>
    rcases checkSchema_ends d hdepth htexts with hcheck | ⟨i, hcheck⟩
    · exact .inl (exists_report hschema hdraft hcheck (hfits hcheck))
    · exact .inr (exists_message hschema hdraft hcheck data)
  | refused hschema hdraft hcheck => exact .inr (exists_message hschema hdraft hcheck data)
  | accepted hschema hdraft hcheck hfits => exact .inl (exists_report hschema hdraft hcheck hfits)

end DocDesk.Schema
