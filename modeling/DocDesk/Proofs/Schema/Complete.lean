import DocDesk.Proofs.Schema.Findings
import DocDesk.Schema.Report

/-!
# Checks that come to their end

A check comes to its end if it does not break off, and if every issue on the way can be shown.  Then its
findings are counted and told whole.

Main statements: `Findings.Complete.bind`, `Findings.Complete.each` and
`Findings.Complete.exists_entries`.
-/

namespace DocDesk.Schema

/-- An issue that can be shown. -/
def Issue.Shown (i : Issue) : Prop := Succeeds i.entry

namespace Issue.Shown

variable {i : Issue}

/-- An issue with parameters is shown. -/
theorem of_params (h : Succeeds i.params) : i.Shown := h.bind fun _ _ => .ok

/-- An issue that is shown has parameters. -/
theorem params (h : i.Shown) : Succeeds i.params := by
  obtain ⟨e, he⟩ := h
  obtain ⟨params, hparams, -⟩ := exists_of_bind_eq_ok he
  exact ⟨params, hparams⟩

/-- Where an issue was found does not matter. -/
theorem under (h : i.Shown) (s : Step) : (i.under s).Shown := of_params h.params

/-- Nor does what led to it. -/
theorem through (h : i.Shown) (keyword : String) : (i.through keyword).Shown := of_params h.params

/-- Only two keywords are shown with other parameters than their own. -/
theorem of_keyword (hrequired : i.keyword ≠ some "required")
    (hadditional : i.keyword ≠ some "additionalProperties") : i.Shown := by
  refine of_params ?_
  unfold Issue.params
  split
  · next hkeyword _ => exact absurd hkeyword hrequired
  · next hkeyword _ => exact absurd hkeyword hadditional
  · exact .ok

end Issue.Shown

/-- The issue of a false schema is shown. -/
theorem shown_forbidden (data : Json) : (forbidden data).Shown := .of_keyword nofun nofun

/-- Findings that come to their end. -/
inductive Findings.Complete : Findings → Prop
  | done : Complete .done
  | found {i : Issue} {rest : Unit → Findings} : i.Shown → Complete (rest ()) → Complete (.found i rest)

namespace Findings.Complete

variable {fs : Findings}

/-- Complete findings behind complete findings are complete. -/
theorem append (h : fs.Complete) {next : Unit → Findings} (hnext : (next ()).Complete) :
    (fs.append next).Complete := by
  induction h with
  | done => exact hnext
  | found hshown _ ih => exact .found hshown ih

/-- Complete findings one after the other are complete. -/
theorem each {xs : List α} {check : α → Findings} (h : ∀ x ∈ xs, (check x).Complete) :
    (Findings.each xs check).Complete := by
  induction xs with
  | nil => exact .done
  | cons x xs ih =>
    obtain ⟨hx, hxs⟩ := List.forall_mem_cons.mp h
    exact hx.append (ih hxs)

/-- What keeps issues shown keeps findings complete. -/
theorem map {f : Issue → Issue} (hf : ∀ i : Issue, i.Shown → (f i).Shown) (h : fs.Complete) :
    (fs.map f).Complete := by
  induction h with
  | done => exact .done
  | found hshown _ ih => exact .found (hf _ hshown) ih

/-- Moving to a part does. -/
theorem under (h : fs.Complete) (s : Step) : (fs.under s).Complete := h.map fun _ hi => hi.under s

/-- Going through a keyword does. -/
theorem through (h : fs.Complete) (keyword : String) : (fs.through keyword).Complete :=
  h.map fun _ hi => hi.through keyword

/-- A list of issues is complete if all of them are shown. -/
theorem ofList {is : List Issue} (h : ∀ i ∈ is, i.Shown) : (Findings.ofList is).Complete := by
  induction is with
  | nil => exact .done
  | cons i is ih =>
    obtain ⟨hi, his⟩ := List.forall_mem_cons.mp h
    exact .found hi (ih his)

/-- A step that succeeds comes first. -/
theorem bind {x : Except Failure α} {f : α → Except Failure Findings} (hx : Succeeds x)
    (hf : ∀ a, x = .ok a → (ofExcept (f a)).Complete) : (ofExcept (x >>= f)).Complete := by
  obtain ⟨a, rfl⟩ := hx
  exact hf a rfl

/-- Issues that are all told, each of which can be shown. -/
theorem ofExcept_map {x : Except Failure (List Issue)} (hx : Succeeds x)
    (hshown : ∀ is, x = .ok is → ∀ i ∈ is, i.Shown) : (ofExcept (x.map .ofList)).Complete := by
  obtain ⟨is, rfl⟩ := hx
  exact ofList (hshown is rfl)

/-- Complete findings can be collected. -/
theorem collect (h : fs.Complete) : Succeeds fs.collect := by
  induction h with
  | done => exact .ok
  | found _ _ ih => exact ih.bind fun _ _ => .ok

/-- Of complete findings it can be told whether there is one. -/
theorem isClean (h : fs.Complete) : Succeeds fs.isClean := by
  cases h with
  | done => exact .ok
  | found => exact .ok

/-- They can be reported. -/
theorem exists_entries (h : fs.Complete) : Succeeds fs.entries := by
  induction h with
  | done => exact .ok
  | found hshown _ ih => exact Succeeds.bind hshown fun _ _ => ih.bind fun _ _ => .ok

end Findings.Complete

end DocDesk.Schema
