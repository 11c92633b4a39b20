import DocDesk.Proofs.Schema.Findings
import DocDesk.Schema.Report
import Mathlib.Data.List.Forall2

/-!
# What a report tells

A report comes of a schema that is in order and of a check that does not break off, and it has one entry
for every issue, in the order in which they are found.

Main statement: `exists_issues_of_report`.
-/

namespace DocDesk.Schema

/-- An entry has the pointer and the value of its issue. -/
theorem pointer_of_entry {i : Issue} {e : Entry} (h : i.entry = .ok e) :
    e.pointer = Pointer.text i.path ∧ e.data = i.data := by
  obtain ⟨params, -, h⟩ := exists_of_bind_eq_ok h
  cases h
  exact ⟨rfl, rfl⟩

/-- What is found is found under some draft. -/
theorem exists_draft_of_validate {schema data : Json} {found : Findings}
    (h : validate schema data = .ok found) : ∃ d, found = findings ⟨d, schema⟩ data := by
  unfold validate at h
  split at h
  · cases h
  · obtain ⟨d, -, h⟩ := exists_of_bind_eq_ok h
    obtain ⟨_, -, h⟩ := exists_of_bind_eq_ok h
    cases h
    exact ⟨d, rfl⟩

/-- The entries of findings are those of their issues, one for each. -/
theorem exists_issues_of_entries {fs : Findings} {es : List Entry} (h : fs.entries = .ok es) :
    ∃ is, fs.collect = .ok is ∧ List.Forall₂ (fun i e => i.entry = .ok e) is es := by
  induction fs generalizing es with
  | done =>
    cases h
    exact ⟨[], rfl, .nil⟩
  | broken f => cases h
  | found i rest ih =>
    rw [Findings.entries] at h
    obtain ⟨e, hentry, h⟩ := exists_of_bind_eq_ok h
    obtain ⟨more, hmore, h⟩ := exists_of_bind_eq_ok h
    cases h
    obtain ⟨is, hcollect, his⟩ := ih () hmore
    refine ⟨i :: is, ?_, .cons hentry his⟩
    rw [Findings.collect, hcollect]
    rfl

/-- A report tells the issues that the schema finds in the document, one entry for each. -/
theorem exists_issues_of_report {schema data : Json} {r : Report} (h : report schema data = .ok r) :
    ∃ d issues, validate schema data = .ok (findings ⟨d, schema⟩ data) ∧
      (findings ⟨d, schema⟩ data).collect = .ok issues ∧
      List.Forall₂ (fun i e => i.entry = .ok e) issues r.entries := by
  obtain ⟨found, hfound, h⟩ := exists_of_bind_eq_ok h
  obtain ⟨entries, hentries, h⟩ := exists_of_bind_eq_ok h
  cases h
  obtain ⟨d, rfl⟩ := exists_draft_of_validate hfound
  obtain ⟨issues, hcollect, hissues⟩ := exists_issues_of_entries (of_mapError_eq_ok hentries)
  exact ⟨d, issues, hfound, hcollect, hissues⟩

end DocDesk.Schema
