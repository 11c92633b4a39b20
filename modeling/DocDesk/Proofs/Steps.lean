/-!
# Steps that may fail

What a row of steps tells if all of them succeed.

Main statements: `exists_of_bind_eq_ok`, `FailsWith.bind` and `exists_of_mem_mapM`.
-/

namespace DocDesk

/-- Two steps succeed only if the first does, and the second on its result. -/
theorem exists_of_bind_eq_ok {ε α β : Type} {x : Except ε α} {f : α → Except ε β} {b : β}
    (h : x >>= f = .ok b) : ∃ a, x = .ok a ∧ f a = .ok b := by
  cases x with
  | error e => cases h
  | ok a => exact ⟨a, rfl, h⟩

/-- Two steps fail where the first does, or where the second does on its result. -/
theorem error_of_bind_eq_error {ε α β : Type} {x : Except ε α} {f : α → Except ε β} {e : ε}
    (h : x >>= f = .error e) : x = .error e ∨ ∃ a, x = .ok a ∧ f a = .error e := by
  cases x with
  | error d =>
    cases h
    exact .inl rfl
  | ok a => exact .inr ⟨a, rfl, h⟩

/-- Wording a fault changes no result. -/
theorem of_mapError_eq_ok {ε δ α : Type} {x : Except ε α} {f : ε → δ} {a : α}
    (h : x.mapError f = .ok a) : x = .ok a := by
  cases x with
  | error e => cases h
  | ok b => cases h; rfl

/-- A result that was changed was there before. -/
theorem exists_of_map_eq_ok {ε α β : Type} {x : Except ε α} {f : α → β} {b : β}
    (h : x.map f = .ok b) : ∃ a, x = .ok a ∧ f a = b := by
  cases x with
  | error e => cases h
  | ok a => cases h; exact ⟨a, rfl, rfl⟩

/-- Changing a result changes no fault. -/
theorem of_map_eq_error {ε α β : Type} {x : Except ε α} {f : α → β} {e : ε}
    (h : x.map f = .error e) : x = .error e := by
  cases x with
  | error d => cases h; rfl
  | ok a => cases h

/-- A step with a result succeeds. -/
theorem eq_ok_of_toOption {ε α : Type} {x : Except ε α} {a : α} (h : x.toOption = some a) : x = .ok a := by
  cases x with
  | error e => cases h
  | ok b => exact congrArg Except.ok (Option.some.inj h)

/-- Why a step fails, if it does. -/
def fault? {ε α : Type} : Except ε α → Option ε
  | .ok _ => none
  | .error e => some e

/-- A step with a fault fails. -/
theorem eq_error_of_fault? {ε α : Type} {x : Except ε α} {e : ε} (h : fault? x = some e) : x = .error e := by
  cases x with
  | ok a => cases h
  | error d => exact congrArg Except.error (Option.some.inj h)

/-- A step that fails in certain ways only. -/
def FailsWith {ε α : Type} (P : ε → Prop) (x : Except ε α) : Prop := ∀ e, x = .error e → P e

namespace FailsWith

variable {ε α β : Type} {P : ε → Prop}

/-- A step that succeeds fails with nothing else. -/
theorem ok {a : α} : FailsWith P (.ok a : Except ε α) := nofun

/-- A step that fails with such a fault. -/
theorem error {e : ε} (h : P e) : FailsWith P (.error e : Except ε α) := by
  intro d hd
  cases hd
  exact h

/-- Two steps fail as each of them does. -/
theorem bind {x : Except ε α} {f : α → Except ε β} (hx : FailsWith P x) (hf : ∀ a, FailsWith P (f a)) :
    FailsWith P (x >>= f) := by
  intro e he
  rcases error_of_bind_eq_error he with he | ⟨a, -, he⟩
  · exact hx e he
  · exact hf a e he

/-- A step that is one of two fails as they do. -/
theorem ite {c : Prop} [Decidable c] {x y : Except ε α} (hx : FailsWith P x) (hy : FailsWith P y) :
    FailsWith P (if c then x else y) := by
  split
  · exact hx
  · exact hy

end FailsWith

/-! ## Steps that succeed -/

/-- A step that does not fail. -/
def Succeeds {ε α : Type} (x : Except ε α) : Prop := ∃ a, x = .ok a

namespace Succeeds

variable {ε α β : Type}

/-- A step with a result succeeds. -/
theorem ok {a : α} : Succeeds (.ok a : Except ε α) := ⟨a, rfl⟩

/-- Two steps succeed if the first does, and the second on its result. -/
theorem bind {x : Except ε α} {f : α → Except ε β} (hx : Succeeds x)
    (hf : ∀ a, x = .ok a → Succeeds (f a)) : Succeeds (x >>= f) := by
  obtain ⟨a, rfl⟩ := hx
  exact hf a rfl

/-- Steps over a list succeed if each of them does. -/
theorem mapM {f : α → Except ε β} {xs : List α} (h : ∀ x ∈ xs, Succeeds (f x)) :
    Succeeds (xs.mapM f) := by
  induction xs with
  | nil => exact ok
  | cons x xs ih =>
    obtain ⟨hx, hxs⟩ := List.forall_mem_cons.mp h
    rw [List.mapM_cons]
    exact hx.bind fun _ _ => (ih hxs).bind fun _ _ => ok

/-- So does asking whether one of a list passes a test. -/
theorem anyM {p : α → Except ε Bool} {xs : List α} (h : ∀ x ∈ xs, Succeeds (p x)) :
    Succeeds (xs.anyM p) := by
  induction xs with
  | nil => exact ok
  | cons x xs ih =>
    obtain ⟨hx, hxs⟩ := List.forall_mem_cons.mp h
    rw [List.anyM_cons]
    refine hx.bind fun found _ => ?_
    cases found with
    | true => exact ok
    | false => exact ih hxs

/-- So does asking which of a list pass a test. -/
theorem filterM {p : α → Except ε Bool} {xs : List α} (h : ∀ x ∈ xs, Succeeds (p x)) :
    Succeeds (xs.filterM p) := by
  have hkept : ∀ kept, Succeeds (List.filterAuxM p xs kept) := by
    induction xs with
    | nil => exact fun _ => ok
    | cons x xs ih =>
      obtain ⟨hx, hxs⟩ := List.forall_mem_cons.mp h
      intro kept
      rw [List.filterAuxM]
      exact hx.bind fun _ _ => ih hxs _
  exact (hkept []).bind fun _ _ => ok

end Succeeds

/-! ## Rows of steps -/

/-- Every result of a row of steps comes of one of them. -/
theorem exists_of_mem_mapM {ε α β : Type} {f : α → Except ε β} {xs : List α} {ys : List β}
    (h : xs.mapM f = .ok ys) {y : β} (hy : y ∈ ys) : ∃ x ∈ xs, f x = .ok y := by
  induction xs generalizing ys with
  | nil =>
    cases h
    cases hy
  | cons x xs ih =>
    rw [List.mapM_cons] at h
    obtain ⟨first, hfirst, h⟩ := exists_of_bind_eq_ok h
    obtain ⟨rest, hrest, h⟩ := exists_of_bind_eq_ok h
    cases h
    rcases List.mem_cons.mp hy with rfl | hy
    · exact ⟨x, List.mem_cons_self, hfirst⟩
    · obtain ⟨x', hx', heq⟩ := ih hrest hy
      exact ⟨x', List.mem_cons_of_mem _ hx', heq⟩

/-- What is kept of a list is in the list. -/
theorem mem_of_mem_filterM {ε α : Type} {p : α → Except ε Bool} {xs ys : List α}
    (h : xs.filterM p = .ok ys) {y : α} (hy : y ∈ ys) : y ∈ xs := by
  have hkept : ∀ kept ys, List.filterAuxM p xs kept = .ok ys → ∀ y ∈ ys, y ∈ xs ∨ y ∈ kept := by
    clear h
    induction xs with
    | nil =>
      intro kept ys h y hy
      cases h
      exact .inr hy
    | cons x xs ih =>
      intro kept ys h y hy
      rw [List.filterAuxM] at h
      obtain ⟨keep, -, h⟩ := exists_of_bind_eq_ok h
      rcases ih _ _ h y hy with hmem | hmem
      · exact .inl (List.mem_cons_of_mem _ hmem)
      · cases keep with
        | false => exact .inr hmem
        | true =>
          rcases List.mem_cons.mp hmem with rfl | hmem
          · exact .inl List.mem_cons_self
          · exact .inr hmem
  obtain ⟨kept, hkeep, h⟩ := exists_of_bind_eq_ok h
  cases h
  exact (hkept [] kept hkeep y (List.mem_reverse.mp hy)).resolve_right List.not_mem_nil

/-- A row of steps fails with one of them. -/
theorem exists_of_mapM_eq_error {ε α β : Type} {f : α → Except ε β} {xs : List α} {e : ε}
    (h : xs.mapM f = .error e) : ∃ x ∈ xs, f x = .error e := by
  induction xs with
  | nil => cases h
  | cons x xs ih =>
    rw [List.mapM_cons] at h
    rcases error_of_bind_eq_error h with h | ⟨first, -, h⟩
    · exact ⟨x, List.mem_cons_self, h⟩
    · rcases error_of_bind_eq_error h with h | ⟨rest, -, h⟩
      · obtain ⟨x', hx', heq⟩ := ih h
        exact ⟨x', List.mem_cons_of_mem _ hx', heq⟩
      · cases h

end DocDesk
