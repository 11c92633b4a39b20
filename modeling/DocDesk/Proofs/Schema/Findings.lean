import DocDesk.Proofs.Steps
import DocDesk.Schema.Validation

/-!
# Issues among findings

Findings tell their issues one after the other, and an issue is among them if it is told at some point,
whether or not the check breaks off behind it.

Main statements: `mem_append`, `mem_each` and `mem_of_collect`.
-/

namespace DocDesk.Schema

namespace Findings

/-! ## Issues that are found -/

/-- An issue that is found at some point. -/
inductive Mem : Findings → Issue → Prop
  | head {i rest} : Mem (.found i rest) i
  | tail {i j rest} : Mem (rest ()) i → Mem (.found j rest) i

instance : Membership Issue Findings := ⟨Mem⟩

variable {i j : Issue} {fs : Findings}

/-- What is found is the first issue or among the rest. -/
theorem mem_found {rest : Unit → Findings} : i ∈ found j rest ↔ i = j ∨ i ∈ rest () := by
  constructor
  · intro h
    cases h with
    | head => exact .inl rfl
    | tail h => exact .inr h
  · rintro (rfl | h)
    · exact .head
    · exact .tail h

@[simp] theorem not_mem_done : i ∉ done := nofun

@[simp] theorem not_mem_broken {f : Failure} : i ∉ broken f := nofun

/-- What is found in a row is found in one of the parts. -/
theorem mem_append {next : Unit → Findings} (h : i ∈ fs.append next) : i ∈ fs ∨ i ∈ next () := by
  induction fs with
  | done => exact .inr h
  | broken f => cases h
  | found j rest ih =>
    rcases mem_found.mp h with rfl | h
    · exact .inl .head
    · exact (ih () h).imp .tail id

/-- What is found one after the other is found in one place. -/
theorem mem_each {xs : List α} {check : α → Findings} (h : i ∈ each xs check) :
    ∃ x ∈ xs, i ∈ check x := by
  induction xs with
  | nil => cases h
  | cons x xs ih =>
    rcases mem_append h with h | h
    · exact ⟨x, List.mem_cons_self, h⟩
    · obtain ⟨y, hy, h⟩ := ih h
      exact ⟨y, List.mem_cons_of_mem _ hy, h⟩

/-- What is found after a change was found before it. -/
theorem mem_map {f : Issue → Issue} : i ∈ fs.map f ↔ ∃ j ∈ fs, i = f j := by
  induction fs with
  | done => simp [map]
  | broken e => simp [map]
  | found j rest ih => simp [map, mem_found, ih]

@[simp] theorem mem_ofList {is : List Issue} : i ∈ ofList is ↔ i ∈ is := by
  induction is with
  | nil => simp [ofList]
  | cons j is ih => rw [ofList, mem_found, ih, List.mem_cons]

/-! ## Checks that may break off before they start -/

@[simp] theorem not_mem_ofExcept_error {f : Failure} : i ∉ ofExcept (.error f) := nofun

/-- What is found behind a step that may fail is found after the step. -/
theorem mem_ofExcept_bind {x : Except Failure α} {f : α → Except Failure Findings} :
    i ∈ ofExcept (x >>= f) ↔ ∃ a, x = .ok a ∧ i ∈ ofExcept (f a) := by
  cases x with
  | error e => simp [bind, Except.bind]
  | ok a => simp [bind, Except.bind]

/-! ## Collected issues -/

/-- Findings that do not break off are told in full. -/
theorem mem_of_collect {is : List Issue} (h : fs.collect = .ok is) : i ∈ is ↔ i ∈ fs := by
  induction fs generalizing is with
  | done => cases h; simp
  | broken f => cases h
  | found j rest ih =>
    rw [collect] at h
    obtain ⟨js, hjs, h⟩ := exists_of_bind_eq_ok h
    cases h
    rw [List.mem_cons, mem_found, ih () hjs]

/-- A list of issues is collected as it is. -/
theorem collect_ofList (is : List Issue) : (ofList is).collect = .ok is := by
  induction is with
  | nil => rfl
  | cons i is ih =>
    rw [ofList, collect, ih]
    rfl

/-- Changing issues commutes with collecting them. -/
theorem collect_map (f : Issue → Issue) (fs : Findings) :
    (fs.map f).collect = fs.collect.map (List.map f) := by
  induction fs with
  | done => rfl
  | broken e => rfl
  | found i rest ih =>
    rw [map, collect, collect, ih]
    cases (rest ()).collect <;> rfl

end Findings

end DocDesk.Schema
