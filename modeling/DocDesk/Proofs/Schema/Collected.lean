import DocDesk.Proofs.Schema.Raised

/-!
# Issues that are told in full

What holds of the issues of a check, if all of them are told, follows from what holds of the issues of
every keyword: the keywords of a schema are checked in a row, and what they hand on is checked by schemas
of less nesting.

Main statements: `Task.Builds.yields` and `Findings.Yields.walk`.
-/

namespace DocDesk.Schema

/-- Findings whose issues, if all of them are told, have a property together. -/
def Findings.Yields (P : List Issue → Prop) (fs : Findings) : Prop := ∀ is, fs.collect = .ok is → P is

/-- A property of issues that rows of them have if their parts do. -/
structure HoldsInRows (P : List Issue → Prop) : Prop where
  nil : P []
  append {is js : List Issue} : P is → P js → P (is ++ js)

/-- What holds of every single issue holds in rows. -/
theorem holdsInRows_forall (P : Issue → Prop) : HoldsInRows fun is => ∀ i ∈ is, P i :=
  ⟨nofun, fun his hjs => List.forall_mem_append.mpr ⟨his, hjs⟩⟩

namespace Findings

/-- Checks in a row are told in full only if every one of them is. -/
theorem exists_collect_of_each {xs : List α} {check : α → Findings} {is : List Issue}
    (h : (each xs check).collect = .ok is) : ∀ x ∈ xs, ∃ js, (check x).collect = .ok js := by
  induction xs generalizing is with
  | nil => exact nofun
  | cons x xs ih =>
    rw [each, collect_append] at h
    obtain ⟨first, hfirst, h⟩ := exists_of_bind_eq_ok h
    obtain ⟨rest, hrest, h⟩ := exists_of_bind_eq_ok h
    exact List.forall_mem_cons.mpr ⟨⟨first, hfirst⟩, ih hrest⟩

namespace Yields

variable {P : List Issue → Prop} {fs : Findings}

/-- No findings yield what holds of no issues. -/
theorem done (hP : HoldsInRows P) : Findings.done.Yields P := by
  intro is h
  cases h
  exact hP.nil

/-- Findings that break off yield everything. -/
theorem broken {f : Failure} : (Findings.broken f).Yields P := nofun

/-- A list of issues yields what holds of it. -/
theorem ofList {is : List Issue} (h : P is) : (Findings.ofList is).Yields P := by
  intro js hjs
  rw [collect_ofList] at hjs
  cases hjs
  exact h

/-- Findings one behind the other yield what holds in rows. -/
theorem append (hP : HoldsInRows P) {next : Unit → Findings} (h : fs.Yields P)
    (hnext : (next ()).Yields P) : (fs.append next).Yields P := by
  intro is his
  rw [collect_append] at his
  obtain ⟨first, hfirst, his⟩ := exists_of_bind_eq_ok his
  obtain ⟨second, hsecond, his⟩ := exists_of_bind_eq_ok his
  cases his
  exact hP.append (h first hfirst) (hnext second hsecond)

/-- Findings for each of some values yield what holds in rows. -/
theorem each (hP : HoldsInRows P) {xs : List α} {check : α → Findings}
    (h : ∀ x ∈ xs, (check x).Yields P) : (Findings.each xs check).Yields P := by
  induction xs with
  | nil => exact done hP
  | cons x xs ih =>
    obtain ⟨hx, hxs⟩ := List.forall_mem_cons.mp h
    exact append hP hx (ih hxs)

/-- Findings that are changed yield what holds after the change. -/
theorem map {Q : List Issue → Prop} {f : Issue → Issue} (hf : ∀ is, P is → Q (is.map f))
    (h : fs.Yields P) : (fs.map f).Yields Q := by
  intro is his
  rw [collect_map] at his
  obtain ⟨js, hjs, rfl⟩ := exists_of_map_eq_ok his
  exact hf js (h js hjs)

/-- Findings that are worked out yield what they yield. -/
theorem ofExcept {x : Except Failure Findings} (h : ∀ fs, x = .ok fs → fs.Yields P) :
    (Findings.ofExcept x).Yields P := by
  cases x with
  | error f => exact broken
  | ok fs => exact h fs rfl

/-- Issues that are all told, unless the check breaks off before the first one. -/
theorem ofExcept_map {x : Except Failure (List Issue)} (h : ∀ is, x = .ok is → P is) :
    (Findings.ofExcept (x.map .ofList)).Yields P := by
  cases x with
  | error f => exact broken
  | ok is => exact ofList (h is rfl)

end Yields

end Findings

/-! ## Below a keyword -/

/-- Whatever a checker checks, the issues that it tells have a property together. -/
structure Checker.Yields (P : List Issue → Prop) (c : Checker) : Prop where
  descend (s : Scope) (schema data : Json) : (c.descend s schema data).Yields P
  arrive (s : Scope) (found : Json × Scope) (data : Json) : (c.arrive s found data).Yields P

section

variable {P : List Issue → Prop}

/-- The checker of a walk yields what the walk does. -/
theorem yields_checkerOf {l : Library} {w : Draft → Scope → Json → Json → Findings}
    (hw : ∀ d s schema data, (w d s schema data).Yields P) : (checkerOf l w).Yields P where
  descend s schema data := .ofExcept fun fs h => by
    obtain ⟨d, -, h⟩ := exists_of_bind_eq_ok h
    cases h
    exact hw _ _ _ _
  arrive s found data := .ofExcept fun fs h => by
    obtain ⟨d, -, h⟩ := exists_of_bind_eq_ok h
    cases h
    exact hw _ _ _ _

/-- A step to a part yields what is kept when issues move to a part. -/
theorem Task.yields_step {t : Task} (hunder : ∀ s is, P is → P (is.map (Issue.under s)))
    (hchecker : t.checker.Yields P) (s : Step) (schema data : Json) :
    (t.step s schema data).Yields P := by
  unfold Task.step
  split
  · exact hchecker.descend _ _ _
  · exact (hchecker.descend _ _ _).map (hunder s)

/-- What holds of the issues of a site, and of all that is found below it, holds of all that a keyword
puts together. -/
theorem Task.Builds.yields {t : Task} {r : Reach} {fs : Findings} (hP : HoldsInRows P)
    (hunder : ∀ s is, P is → P (is.map (Issue.under s)))
    (hown : ∀ is, (∀ i ∈ is, t.site.Own i) → P is)
    (hmissing : ∀ i : Issue, i.trail = [] → i.keyword = some "required" → P [i])
    (hchecker : t.checker.Yields P) (h : t.Builds r fs) : fs.Yields P := by
  induction h with
  | done => exact .done hP
  | broken => exact .broken
  | own _ his => exact .ofList (hown _ his)
  | here => exact hchecker.descend _ _ _
  | arrived => exact hchecker.arrive _ _ _
  | part _ => exact Task.yields_step hunder hchecker _ _ _
  | missing _ _ _ htrail hrequired => exact .ofList (hmissing _ htrail hrequired)
  | name => exact hchecker.descend _ _ _
  | append _ _ ih ihnext => exact ih.append hP ihnext

/-- What a keyword tells at its place among those of a schema. -/
def keywordCheck (c : Checker) (s : Scope) (schema : List (String × Json)) (data : Json)
    (k : String × Json) : Findings :=
  (keywordFindings ⟨c, s, ⟨k.1, k.2, schema, data⟩⟩).through k.1

/-- What holds of the issues of every keyword holds of all issues.  A keyword may rely on all keywords
that count beside it being told in full. -/
theorem Findings.Yields.walk (hP : HoldsInRows P) (hforbidden : ∀ data, P [forbidden data])
    (hkeyword : ∀ (c : Checker) (s : Scope) (d : Draft) (schema data : Json)
      (keywords : List (String × Json)), c.Yields P → applicable d schema = .ok keywords →
      (∀ k ∈ keywords, ∃ js, (keywordCheck c s (membersOf schema) data k).collect = .ok js) →
      ∀ k ∈ keywords, (keywordCheck c s (membersOf schema) data k).Yields P)
    (l : Library) (fuel : Nat) (d : Draft) (s : Scope) (schema data : Json) :
    (walk l fuel d s schema data).Yields P := by
  -- on the nesting of schemas, as they are walked
  induction fuel generalizing d s schema data with
  | zero => exact .broken
  | succ fuel ih =>
    by_cases hschema : ∃ b, schema = .bool b
    · obtain ⟨b, rfl⟩ := hschema
      cases b with
      | true => exact .done hP
      | false => exact .ofList (hforbidden data)
    · have hne : ∀ b, schema ≠ .bool b := fun b heq => hschema ⟨b, heq⟩
      rw [walk.eq_4 l d s schema data fuel (hne true) (hne false)]
      refine .ofExcept fun fs h => ?_
      obtain ⟨keywords, hkeywords, h⟩ := exists_of_bind_eq_ok h
      cases h
      intro is his
      have hall := Findings.exists_collect_of_each his
      have hchecker : (checkerOf l (Schema.walk l fuel)).Yields P := yields_checkerOf ih
      exact Findings.Yields.each hP (hkeyword _ s d schema data keywords hchecker hkeywords hall) is his

end

end DocDesk.Schema
