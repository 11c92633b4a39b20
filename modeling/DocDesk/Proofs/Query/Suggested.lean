import DocDesk.Proofs.Query.Discovery
import DocDesk.Proofs.Table.Records

/-!
# Which queries are suggested

The suggestions for a document are cut off a list without repetition, so that a smaller limit gives the
front of what a larger one gives.  Every list and every scalar that is reached through objects alone is
on that list.

Main statement: `suggest_covers`.
-/

namespace DocDesk.Query

/-- The path text of field names. -/
def fieldsPath (names : List String) : String :=
  String.ofList ('$' :: names.flatMap fun name => '.' :: name.toList)

/-- A chain of names that can be asked for, from a document through objects alone. -/
abbrev Chain (v : Json) (names : List String) (x : Json) : Prop := Leads v (names.map .name) x

/-! ## Coverage -/

/-- A list at the end of a chain is discovered. -/
theorem mem_listPathsFrom_of_chain {v : Json} {names : List String} {items : List Json}
    (h : Chain v names (.arr items)) (path : List Step) :
    path ++ names.map .name ∈ listPathsFrom path v := by
  induction names generalizing v path with
  | nil =>
    cases h
    rw [List.map_nil, List.append_nil]
    exact List.mem_cons_self
  | cons name names ih =>
    cases h with
    | member hname hmember hrest =>
      rw [listPathsFrom_obj, mem_fromMembers, List.map_cons, List.append_cons]
      exact ⟨_, Json.mem_of_member? hmember, hname, ih hrest _⟩

/-- A scalar at the end of a chain is discovered. -/
theorem mem_leafPathsFrom_of_chain {v x : Json} {names : List String} (h : Chain v names x)
    (hx : x.isScalar = true) (path : List Step) :
    path ++ names.map .name ∈ leafPathsFrom path v := by
  induction names generalizing v path with
  | nil =>
    cases h
    rw [List.map_nil, List.append_nil]
    cases x with
    | arr _ | obj _ => cases hx
    | _ => exact List.mem_cons_self
  | cons name names ih =>
    cases h with
    | member hname hmember hrest =>
      rw [leafPathsFrom_obj, mem_fromMembers, List.map_cons, List.append_cons]
      exact ⟨_, Json.mem_of_member? hmember, hname, ih hrest _⟩

/-! ## Texts -/

/-- Steps that lead somewhere are legal. -/
theorem Leads.legal {v x : Json} {ss : List Step} (h : Leads v ss x) : ∀ s ∈ ss, s.Legal := by
  intro s hs
  rcases h.followable s hs with rfl | ⟨name, hname, rfl⟩
  · exact trivial
  · exact hname

/-- More steps are written behind the others. -/
theorem buildPath_append {steps more : List Step} (hsteps : ∀ s ∈ steps, s.Legal)
    (hmore : ∀ s ∈ more, s.Legal) :
    buildPath (steps ++ more) =
      buildPath steps ++ String.ofList ((more.map Step.toSegment).flatMap Segment.render) := by
  have hall : ∀ s ∈ steps ++ more, s.Legal := List.forall_mem_append.mpr ⟨hsteps, hmore⟩
  rw [← String.toList_inj, String.toList_append, String.toList_ofList, toList_buildPath hall,
    toList_buildPath hsteps, List.map_append, List.flatMap_append, List.cons_append]

/-- A path of names is a path of fields. -/
theorem buildPath_names {names : List String} (h : ∀ s ∈ names.map Step.name, s.Legal) :
    buildPath (names.map .name) = fieldsPath names := by
  rw [← String.toList_inj, toList_buildPath h, fieldsPath, String.toList_ofList, List.map_map,
    List.flatMap_map]
  rfl

/-- A list that is reached without a star is suggested with all its items, and with the first one. -/
theorem listExamples_names {names : List String} (h : ∀ s ∈ names.map Step.name, s.Legal) :
    listExamples (names.map .name) = [fieldsPath names ++ "[*]", fieldsPath names ++ "[0]"] := by
  have hcount : (names.map Step.name).count .any = 0 := List.count_eq_zero.mpr (by simp)
  have hany : ∀ s ∈ [Step.any], s.Legal := by decide
  have hfirst : ∀ s ∈ [Step.index 0], s.Legal :=
    List.forall_mem_singleton.mpr (lt_indexLimit_iff.mpr (by decide) : 0 < indexLimit)
  rw [listExamples, hcount, buildPath_append h hany, buildPath_append h hfirst, buildPath_names h]
  rfl

/-! ## Suggestions -/

/-- The new ones of some keys are the keys. -/
theorem mem_addNew {keys : List String} {k : String} : k ∈ Table.addNew [] keys ↔ k ∈ keys :=
  have hnone : Table.FirstSeen [] [] := ⟨fun _ => .rfl, .nil⟩
  (Table.firstSeen_addNew hnone).mem_iff k

/-- Texts that are there already stay in front. -/
theorem prefix_addNew (seen keys : List String) : seen <+: Table.addNew seen keys := by
  induction keys generalizing seen with
  | nil => exact List.prefix_rfl
  | cons k keys ih =>
    rw [Table.addNew, List.foldl_cons]
    split
    · exact ih seen
    · exact (List.prefix_append seen [k]).trans (ih _)

/-- The document itself is the first suggestion. -/
theorem prefix_suggestions (v : Json) : ["$"] <+: suggestions v := prefix_addNew ["$"] _

/-- The examples for a list are suggested. -/
theorem mem_suggestions_of_mem_listExamples {v : Json} {steps : List Step} {text : String}
    (hsteps : steps ∈ listPaths v) (htext : text ∈ listExamples steps) : text ∈ suggestions v := by
  rw [suggestions, mem_addNew]
  exact List.mem_append_left _ (List.mem_cons_of_mem _ (List.mem_flatMap.mpr ⟨steps, hsteps, htext⟩))

/-- The path of a leaf is suggested. -/
theorem mem_suggestions_of_mem_leafPaths {v : Json} {steps : List Step} (h : steps ∈ leafPaths v) :
    buildPath steps ∈ suggestions v := by
  rw [suggestions, mem_addNew]
  exact List.mem_append_right _ (List.mem_map_of_mem h)

/-- What a chain leads to is suggested: a scalar by its path, and a list with all its items and with the
first one. -/
theorem mem_suggestions_of_chain {v x : Json} {names : List String} (hne : names ≠ [])
    (h : Chain v names x) :
    (x.isScalar = true → fieldsPath names ∈ suggestions v) ∧
      ∀ items, x = .arr items →
        fieldsPath names ++ "[*]" ∈ suggestions v ∧ fieldsPath names ++ "[0]" ∈ suggestions v := by
  constructor
  · intro hx
    have hleaf : names.map .name ∈ leafPaths v := by
      rw [leafPaths_eq, if_neg]
      · exact mem_leafPathsFrom_of_chain h hx []
      · -- a chain with a name starts at an object
        cases names with
        | nil => exact absurd rfl hne
        | cons name names =>
          cases h with
          | member => exact nofun
    rw [← buildPath_names h.legal]
    exact mem_suggestions_of_mem_leafPaths hleaf
  · rintro items rfl
    have hlist : names.map .name ∈ listPaths v := by
      rw [listPaths_eq]
      exact mem_listPathsFrom_of_chain h []
    have hexamples := listExamples_names h.legal
    constructor
    · exact mem_suggestions_of_mem_listExamples hlist (hexamples ▸ List.mem_cons_self)
    · exact mem_suggestions_of_mem_listExamples hlist
        (hexamples ▸ List.mem_cons_of_mem _ List.mem_cons_self)

/-- The suggestions start with the document itself, never repeat a text, are no more than the limit and at
least one, and are the front of those for any larger limit.  From some limit on they have every scalar and
every list that is reached through objects alone. -/
theorem suggest_covers (v : Json) :
    (∀ m n : Int, m ≤ n →
      (suggest v m).head? = some "$" ∧ (suggest v m).Nodup ∧ ((suggest v m).length : Int) ≤ max 1 m ∧
        suggest v m <+: suggest v n) ∧
    ∃ enough : Int, ∀ n, enough ≤ n → ∀ names x, names ≠ [] → Chain v names x →
      (x.isScalar = true → fieldsPath names ∈ suggest v n) ∧
        ∀ items, x = .arr items →
          fieldsPath names ++ "[*]" ∈ suggest v n ∧ fieldsPath names ++ "[0]" ∈ suggest v n := by
  refine ⟨fun m n hmn => ⟨?_, ?_, ?_, ?_⟩, (suggestions v).length, fun n hn names x hne h => ?_⟩
  · obtain ⟨more, hmore⟩ := prefix_suggestions v
    obtain ⟨k, hk⟩ : ∃ k, (max 1 m).toNat = k + 1 := Nat.exists_eq_succ_of_ne_zero (by omega)
    rw [suggest, ← hmore, hk]
    rfl
  · exact (List.take_sublist _ _).nodup (suggestions_nodup v)
  · have hlength := suggest_length v m
    omega
  · exact List.take_prefix_take_left (by omega)
  · have hall : suggest v n = suggestions v := List.take_of_length_le (by omega)
    rw [hall]
    exact mem_suggestions_of_chain hne h

/-- A list and a scalar below an object, and what is not reached through objects alone. -/
def shelf : Json :=
  .obj [("a", .obj [("b ", .arr [.obj [("c", .int 1)]]), ("d", .null)]), ("e.f", .int 2)]

/-- Two suggestions out of more, and a leaf that is suggested later. -/
theorem suggest_covers_shelf :
    suggest shelf 2 = ["$", "$.a.b [*]"] ∧ suggest shelf 2 <+: suggest shelf 3 ∧
      Chain shelf ["a", "d"] .null ∧
      ∃ enough : Int, ∀ n, enough ≤ n → "$.a.d" ∈ suggest shelf n := by
  have htwo : suggest shelf 2 = ["$", "$.a.b [*]"] := by decide
  have hchain : Chain shelf ["a", "d"] .null := .member (by decide) rfl (.member (by decide) rfl .here)
  obtain ⟨hlimits, enough, hcovers⟩ := suggest_covers shelf
  obtain ⟨-, -, -, hfront⟩ := hlimits 2 3 (by decide)
  exact ⟨htwo, hfront, hchain, enough, fun n hn => (hcovers n hn ["a", "d"] .null nofun hchain).1 rfl⟩

end DocDesk.Query
