import DocDesk.Proofs.Json.Everywhere
import DocDesk.Proofs.Query.BuiltPath
import DocDesk.Proofs.Query.Trail
import Mathlib.Data.List.Nodup

/-!
# What discovered paths lead to

The paths to the lists and to the scalar fields of a document are found by following members and first
items.  Walking along such a path, its stars taken as all items, comes first to the place that was
followed: the list, or the scalar.

Main statements: `Leads.comesFirst` (a walk comes first to where the steps lead) and
`discovered_comesFirst`.
-/

namespace DocDesk.Query

/-! ## Followed steps -/

/-- Steps lead from a value down through members that can be asked for and through first items. -/
inductive Leads : Json → List Step → Json → Prop
  | here {v : Json} : Leads v [] v
  | member {ms : List (String × Json)} {name : String} {w x : Json} {ss : List Step} :
      isQueryName name = true → Json.member? ms name = some w → Leads w ss x →
      Leads (.obj ms) (.name name :: ss) x
  | first {w x : Json} {vs : List Json} {ss : List Step} :
      Leads w ss x → Leads (.arr (w :: vs)) (.any :: ss) x

/-- The step that is followed: the first item for a star. -/
def Step.followed : Step → Segment
  | .any => .index 0
  | s => s.toSegment

/-- A walk along the steps comes first to the value that they lead to. -/
theorem Leads.comesFirst {v x : Json} {ss : List Step} (h : Leads v ss x) :
    ComesFirst v (ss.map Step.toSegment) ⟨ss.map Step.followed, x⟩ := by
  have htold : ∃ rest, trail v (ss.map Step.toSegment) = .found ⟨ss.map Step.followed, x⟩ rest := by
    induction h with
    | here => exact ⟨_, rfl⟩
    | member _ hmember _ ih =>
      obtain ⟨rest, hrest⟩ := ih
      rw [List.map_cons, Step.toSegment, trail, child_obj, hmember]
      dsimp only
      rw [hrest]
      exact ⟨_, rfl⟩
    | first _ ih =>
      -- what the first item tells comes first, whatever the other items tell
      obtain ⟨rest, hrest⟩ := ih
      rw [List.map_cons, Step.toSegment, trail, Trail.ofItems, hrest]
      exact ⟨_, rfl⟩
  obtain ⟨rest, hrest⟩ := htold
  exact .of_trail hrest

/-- A star, or a name that can be a field. -/
def Step.Followable (s : Step) : Prop := s = .any ∨ ∃ name, isQueryName name = true ∧ s = .name name

/-- Steps that lead somewhere can be followed. -/
theorem Leads.followable {v x : Json} {ss : List Step} (h : Leads v ss x) :
    ∀ s ∈ ss, s.Followable := by
  induction h with
  | here => exact List.forall_mem_nil _
  | member hname _ _ ih => exact List.forall_mem_cons.mpr ⟨.inr ⟨_, hname, rfl⟩, ih⟩
  | first _ ih => exact List.forall_mem_cons.mpr ⟨.inl rfl, ih⟩

/-! ## Collected from members -/

section Members

variable {collect : List Step → Json → List (List Step)} {path : List Step}
  {ms : List (String × Json)}

/-- What is collected below the members that can be asked for. -/
def fromMembers (collect : List Step → Json → List (List Step)) (path : List Step)
    (ms : List (String × Json)) : List (List Step) :=
  ms.flatMap fun m => if isQueryName m.1 then collect (path ++ [.name m.1]) m.2 else []

/-- What is found from members is found from one of them under a name for queries. -/
theorem mem_fromMembers {steps : List Step} : steps ∈ fromMembers collect path ms ↔
    ∃ m ∈ ms, isQueryName m.1 = true ∧ steps ∈ collect (path ++ [.name m.1]) m.2 := by
  rw [fromMembers, List.mem_flatMap]
  refine exists_congr fun m => and_congr_right fun _ => ?_
  split
  · next hname => simp [hname]
  · next hname => simp [hname]

/-- Below members of distinct names different paths are collected. -/
theorem nodup_fromMembers (hnames : (ms.map Prod.fst).Nodup)
    (hbelow : ∀ m ∈ ms, ∀ steps ∈ collect (path ++ [.name m.1]) m.2, path ++ [.name m.1] <+: steps)
    (hnodup : ∀ m ∈ ms, (collect (path ++ [.name m.1]) m.2).Nodup) :
    (fromMembers collect path ms).Nodup := by
  refine List.nodup_flatMap.mpr ⟨fun m hm => ?_, ?_⟩
  · split
    · exact hnodup m hm
    · exact List.nodup_nil
  · refine (List.pairwise_map.mp hnames).imp_of_mem fun {m n} hm hn hne => ?_
    dsimp only [Function.onFun]
    split
    · split
      · intro steps hsteps hother
        obtain ⟨a, ha⟩ := hbelow m hm steps hsteps
        obtain ⟨b, hb⟩ := hbelow n hn steps hother
        have hsame : path ++ [Step.name m.1] = path ++ [Step.name n.1] :=
          (List.append_inj (ha.trans hb.symm) (by simp)).1
        have hstep := List.append_cancel_left hsame
        rw [List.cons.injEq, Step.name.injEq] at hstep
        exact hne hstep.1
      · exact List.disjoint_nil_right _
    · exact List.disjoint_nil_left _

end Members

/-! ## Paths to lists -/

/-- The paths to the lists from a value on, the value itself among them. -/
def listPathsFrom (path : List Step) : Json → List (List Step)
  | .arr vs => path :: listPathsBelow path (.arr vs)
  | v => listPathsOfElement path v

/-- The paths of lists start at the document. -/
theorem listPaths_eq (v : Json) : listPaths v = listPathsFrom [] v := by
  cases v <;> rfl

/-- In an object they go on from its members. -/
theorem listPathsFrom_obj (path : List Step) (ms : List (String × Json)) :
    listPathsFrom path (.obj ms) = fromMembers listPathsFrom path ms := by
  rw [listPathsFrom, listPathsOfElement]
  · induction ms with
    | nil => rfl
    | cons m ms ih =>
      obtain ⟨name, v⟩ := m
      rw [listPathsOfMembers.eq_def, fromMembers, List.flatMap_cons]
      dsimp only
      rw [ih, fromMembers]
      congr 1
      cases v <;> rfl
  · intro items h
    cases h

/-- Only an object is followed as the first item of a list. -/
theorem listPathsOfElement_eq (path : List Step) (v : Json) :
    listPathsOfElement path v = match v with
      | .obj ms => listPathsFrom path (.obj ms)
      | _ => [] := by
  cases v <;> rfl

/-- Every path that is collected leads to a list. -/
theorem leads_of_mem_listPathsFrom {v : Json} (hv : v.DistinctNames) {path steps : List Step}
    (h : steps ∈ listPathsFrom path v) :
    ∃ ss items, steps = path ++ ss ∧ Leads v ss (.arr items) := by
  induction hv generalizing path steps with
  | @scalar v hscalar =>
    cases v with
    | arr _ | obj _ => cases hscalar
    | _ => cases h
  | @arr items _ _ ih =>
    rcases List.mem_cons.mp h with rfl | h
    · exact ⟨[], items, (List.append_nil _).symm, .here⟩
    · cases items with
      | nil => cases h
      | cons w vs =>
        rw [listPathsBelow, listPathsOfElement_eq] at h
        split at h
        · obtain ⟨ss, found, rfl, hleads⟩ := ih _ List.mem_cons_self h
          exact ⟨.any :: ss, found, by rw [List.append_assoc, List.singleton_append], .first hleads⟩
        · cases h
  | @obj ms here _ ih =>
    rw [listPathsFrom_obj, mem_fromMembers] at h
    obtain ⟨m, hm, hname, h⟩ := h
    obtain ⟨ss, found, rfl, hleads⟩ := ih m hm h
    exact ⟨.name m.1 :: ss, found, by rw [List.append_assoc, List.singleton_append],
      .member hname (Json.member?_of_mem here hm) hleads⟩

/-- They go on from where they start. -/
theorem prefix_of_mem_listPathsFrom {v : Json} (hv : v.DistinctNames) {path steps : List Step}
    (h : steps ∈ listPathsFrom path v) : path <+: steps := by
  obtain ⟨ss, -, rfl, -⟩ := leads_of_mem_listPathsFrom hv h
  exact List.prefix_append path ss

/-- None is found twice. -/
theorem nodup_listPathsFrom {v : Json} (hv : v.DistinctNames) (path : List Step) :
    (listPathsFrom path v).Nodup := by
  induction hv generalizing path with
  | @scalar v hscalar =>
    cases v with
    | arr _ | obj _ => cases hscalar
    | _ => exact List.nodup_nil
  | @arr items _ hitems ih =>
    cases items with
    | nil => exact List.nodup_singleton path
    | cons w vs =>
      rw [listPathsFrom, listPathsBelow, listPathsOfElement_eq]
      split
      · refine List.nodup_cons.mpr ⟨fun hmem => ?_, ih _ List.mem_cons_self _⟩
        -- what is collected below the star is longer than the path to the list
        have hlength := (prefix_of_mem_listPathsFrom (hitems _ List.mem_cons_self) hmem).length_le
        rw [List.length_append, List.length_singleton] at hlength
        omega
      · exact List.nodup_singleton path
  | @obj ms here hms ih =>
    rw [listPathsFrom_obj]
    exact nodup_fromMembers here (fun m hm _ => prefix_of_mem_listPathsFrom (hms m hm))
      fun m hm => ih m hm _

/-! ## Paths to scalar fields -/

/-- The paths to the scalar fields from a member's value on, the value itself among them. -/
def leafPathsFrom (path : List Step) : Json → List (List Step)
  | .arr vs => leafPathsBelow path (.arr vs)
  | .obj ms => leafPathsOfElement path (.obj ms)
  | _ => [path]

/-- A document by itself is no field. -/
theorem leafPaths_eq (v : Json) : leafPaths v = if v.isScalar then [] else leafPathsFrom [] v := by
  cases v <;> rfl

/-- The paths of leaves go on from the members of an object. -/
theorem leafPathsFrom_obj (path : List Step) (ms : List (String × Json)) :
    leafPathsFrom path (.obj ms) = fromMembers leafPathsFrom path ms := by
  rw [leafPathsFrom, leafPathsOfElement]
  induction ms with
  | nil => rfl
  | cons m ms ih =>
    obtain ⟨name, v⟩ := m
    rw [leafPathsOfMembers.eq_def, fromMembers, List.flatMap_cons]
    dsimp only
    rw [ih, fromMembers]
    congr 1
    cases v <;> rfl

/-- From an element they go on if it is an object or a leaf. -/
theorem leafPathsOfElement_eq (path : List Step) (v : Json) :
    leafPathsOfElement path v = match v with
      | .obj ms => leafPathsFrom path (.obj ms)
      | _ => [] := by
  cases v <;> rfl

/-- Every path that is collected leads to a scalar, and has one star at most. -/
theorem leads_of_mem_leafPathsFrom {v : Json} (hv : v.DistinctNames) {path steps : List Step}
    (h : steps ∈ leafPathsFrom path v) :
    (∃ ss x, steps = path ++ ss ∧ Leads v ss x ∧ x.isScalar = true) ∧
      (path.count .any ≤ 1 → steps.count .any ≤ 1) := by
  induction hv generalizing path steps with
  | @scalar v hscalar =>
    have hpath : steps = path := by
      cases v with
      | arr _ | obj _ => cases hscalar
      | _ => exact List.mem_singleton.mp h
    subst hpath
    exact ⟨⟨[], v, (List.append_nil _).symm, .here, hscalar⟩, id⟩
  | @arr items _ _ ih =>
    cases items with
    | nil => cases h
    | cons w vs =>
      rw [leafPathsFrom, leafPathsBelow] at h
      split at h
      · cases h
      · next hfresh =>
        rw [leafPathsOfElement_eq] at h
        split at h
        · obtain ⟨⟨ss, x, rfl, hleads, hx⟩, hcount⟩ := ih _ List.mem_cons_self h
          refine ⟨⟨.any :: ss, x, by rw [List.append_assoc, List.singleton_append], .first hleads, hx⟩,
            fun _ => hcount ?_⟩
          -- the star of this list is the first one on the path
          rw [List.count_append, List.count_eq_zero.mpr hfresh]
          decide
        · cases h
  | @obj ms here _ ih =>
    rw [leafPathsFrom_obj, mem_fromMembers] at h
    obtain ⟨m, hm, hname, h⟩ := h
    obtain ⟨⟨ss, x, rfl, hleads, hx⟩, hcount⟩ := ih m hm h
    refine ⟨⟨.name m.1 :: ss, x, by rw [List.append_assoc, List.singleton_append],
      .member hname (Json.member?_of_mem here hm) hleads, hx⟩, fun hpath => hcount ?_⟩
    have hstep : [Step.name m.1].count .any = 0 := List.count_eq_zero.mpr (by simp)
    rw [List.count_append, hstep]
    exact hpath

/-- They go on from where they start. -/
theorem prefix_of_mem_leafPathsFrom {v : Json} (hv : v.DistinctNames) {path steps : List Step}
    (h : steps ∈ leafPathsFrom path v) : path <+: steps := by
  obtain ⟨⟨ss, -, rfl, -⟩, -⟩ := leads_of_mem_leafPathsFrom hv h
  exact List.prefix_append path ss

/-- None is found twice. -/
theorem nodup_leafPathsFrom {v : Json} (hv : v.DistinctNames) (path : List Step) :
    (leafPathsFrom path v).Nodup := by
  induction hv generalizing path with
  | @scalar v hscalar =>
    cases v with
    | arr _ | obj _ => cases hscalar
    | _ => exact List.nodup_singleton path
  | @arr items _ _ ih =>
    cases items with
    | nil => exact List.nodup_nil
    | cons w vs =>
      rw [leafPathsFrom, leafPathsBelow]
      split
      · exact List.nodup_nil
      · rw [leafPathsOfElement_eq]
        split
        · exact ih _ List.mem_cons_self _
        · exact List.nodup_nil
  | @obj ms here hms ih =>
    rw [leafPathsFrom_obj]
    exact nodup_fromMembers here (fun m hm _ => prefix_of_mem_leafPathsFrom (hms m hm))
      fun m hm => ih m hm _

/-! ## Documents -/

/-- The path of a list leads to a list. -/
theorem leads_of_mem_listPaths {v : Json} (hv : v.DistinctNames) {steps : List Step}
    (h : steps ∈ listPaths v) : ∃ items, Leads v steps (.arr items) := by
  rw [listPaths_eq] at h
  obtain ⟨ss, items, rfl, hleads⟩ := leads_of_mem_listPathsFrom hv h
  exact ⟨items, hleads⟩

/-- The path of a leaf leads to a leaf, through one list at most. -/
theorem leads_of_mem_leafPaths {v : Json} (hv : v.DistinctNames) {steps : List Step}
    (h : steps ∈ leafPaths v) :
    (∃ x, Leads v steps x ∧ x.isScalar = true) ∧ steps.count .any ≤ 1 := by
  rw [leafPaths_eq] at h
  split at h
  · cases h
  · obtain ⟨⟨ss, x, rfl, hleads, hx⟩, hcount⟩ := leads_of_mem_leafPathsFrom hv h
    exact ⟨⟨x, hleads, hx⟩, hcount (by decide)⟩

/-- Every discovered path is of names and stars, those to scalar fields with one star at most, and a walk
along it comes first to a list, or a scalar, by the first item for every star.  No path is discovered
twice. -/
theorem discovered_comesFirst {v : Json} (hv : v.DistinctNames) :
    (∀ steps ∈ leafPaths v, steps.count .any ≤ 1 ∧ (∀ s ∈ steps, s.Followable) ∧
      ∃ p, ComesFirst v (steps.map Step.toSegment) p ∧ p.steps = steps.map Step.followed ∧
        p.value.isScalar = true) ∧
    (∀ steps ∈ listPaths v, (∀ s ∈ steps, s.Followable) ∧
      ∃ p, ComesFirst v (steps.map Step.toSegment) p ∧ p.steps = steps.map Step.followed ∧
        ∃ items, p.value = .arr items) ∧
    (leafPaths v).Nodup ∧ (listPaths v).Nodup := by
  refine ⟨fun steps h => ?_, fun steps h => ?_, ?_, ?_⟩
  · obtain ⟨⟨x, hleads, hx⟩, hcount⟩ := leads_of_mem_leafPaths hv h
    exact ⟨hcount, hleads.followable, _, hleads.comesFirst, rfl, hx⟩
  · obtain ⟨items, hleads⟩ := leads_of_mem_listPaths hv h
    exact ⟨hleads.followable, _, hleads.comesFirst, rfl, items, rfl⟩
  · rw [leafPaths_eq]
    split
    · exact List.nodup_nil
    · exact nodup_leafPathsFrom hv []
  · rw [listPaths_eq]
    exact nodup_listPathsFrom hv []

/-- Lists in a list, a list of no objects, and a name that a list further on could take for an index. -/
def nestedLists : Json :=
  .obj [("a", .arr [.obj [("b", .arr [.obj [("c", .null)]]), ("0 ", .int 1), ("x.y", .arr [])],
    .arr [.int 7]]), ("d", .arr [.arr [.obj [("e", .int 2)]]])]

/-- Lists within lists, and a name that ends in a blank. -/
theorem discovered_comesFirst_nestedLists :
    nestedLists.DistinctNames ∧
      leafPaths nestedLists = [[.name "a", .any, .name "0 "]] ∧
      listPaths nestedLists = [[.name "a"], [.name "a", .any, .name "b"], [.name "d"]] ∧
      (∃ p, ComesFirst nestedLists [.field "a", .wildcard, .field "0 "] p ∧
        p.steps = [.field "a", .index 0, .field "0 "] ∧ p.value.isScalar = true) ∧
      ∃ p, ComesFirst nestedLists [.field "a", .wildcard, .field "b"] p ∧
        p.steps = [.field "a", .index 0, .field "b"] ∧ ∃ items, p.value = .arr items := by
  have hnames : nestedLists.DistinctNames := by decide
  have hleaves : leafPaths nestedLists = [[.name "a", .any, .name "0 "]] := by decide
  have hlists : listPaths nestedLists = [[.name "a"], [.name "a", .any, .name "b"], [.name "d"]] := by
    decide
  obtain ⟨hscalar, hlist, -, -⟩ := discovered_comesFirst hnames
  refine ⟨hnames, hleaves, hlists, (hscalar [.name "a", .any, .name "0 "] ?_).2.2,
    (hlist [.name "a", .any, .name "b"] ?_).2⟩
  · rw [hleaves]
    exact List.mem_cons_self
  · rw [hlists]
    exact List.mem_cons_of_mem _ List.mem_cons_self

end DocDesk.Query
