import DocDesk.Proofs.Json.Everywhere
import DocDesk.Proofs.Query.Place
import DocDesk.Proofs.Query.WrittenForm

/-!
# The paths of results

The path of a result is concrete, and evaluating it finds that result and nothing else.  The steps of
a place fit the steps of the path that led there (`places_fit`), so they are spelled as that path
allows and their written form is read back as these steps (`readPath_render_of_fits`).

Main statement: `evaluate_resolves`.
-/

namespace DocDesk.Query

/-- Every array in the document is short enough for the index of each item to be a numeral that can
be read.  Nothing that fits into a memory is any longer. -/
inductive Indexable : Json → Prop where
  | arr {items : List Json} (hlen : items.length ≤ indexLimit)
    (h : ∀ item ∈ items, Indexable item) : Indexable (.arr items)
  | obj {members : List (String × Json)} (h : ∀ m ∈ members, Indexable m.2) :
    Indexable (.obj members)
  | scalar {v : Json} (h : v.isScalar = true) : Indexable v

/-- A concrete step that can stand for the step of a path at a place: the step itself, or an index for
a wildcard or a filter. -/
inductive Segment.Fits : Segment → Segment → Prop where
  | same {s : Segment} (h : s.isConcrete = true) : Fits s s
  | item {s : Segment} {i : Nat} (h : s.isFanOut = true) (hi : i < indexLimit) :
    Fits s (.index i)

/-! ## Steps of places -/

/-- An item of an indexable array is indexable, and its index is within the limit. -/
theorem Indexable.item {items : List Json} {i : Nat} {w : Json} (h : Indexable (.arr items))
    (hi : items[i]? = some w) : Indexable w ∧ i < indexLimit := by
  cases h with
  | arr hlen hitems =>
    obtain ⟨hlt, rfl⟩ := List.getElem?_eq_some_iff.mp hi
    exact ⟨hitems _ (List.getElem_mem hlt), Nat.lt_of_lt_of_le hlt hlen⟩
  | scalar h => cases h

/-- What a name leads to is indexable. -/
theorem Indexable.child {v w : Json} {name : String} (h : Indexable v)
    (hc : Query.child v name = .ok (some w)) : Indexable w := by
  cases v with
  | obj members =>
    rw [child_obj, Except.ok.injEq] at hc
    cases h with
    | obj hmembers => exact hmembers _ (Json.mem_of_member? hc)
    | scalar h => cases h
  | arr items =>
    simp only [Query.child] at hc
    split at hc
    · cases hr : readDigits name.toList with
      | error f => rw [hr] at hc; cases hc
      | ok i =>
        rw [hr] at hc
        exact (h.item (Except.ok.inj hc)).1
    · cases hc
  | _ => cases hc

/-- One step down from an indexable value ends at one, by a step that fits. -/
theorem Move.fits {v w : Json} {s c : Segment} (h : Move v s c w) (hv : Indexable v) :
    s.Fits c ∧ Indexable w := by
  cases h with
  | field hc => exact ⟨.same rfl, hv.child hc⟩
  | index hi =>
    obtain ⟨items, rfl, hget⟩ := item?_eq_some_iff.mp hi
    exact ⟨.same rfl, (hv.item hget).1⟩
  | wildcard hi => exact ⟨.item rfl (hv.item hi).2, (hv.item hi).1⟩
  | filter hi => exact ⟨.item rfl (hv.item hi).2, (hv.item hi).1⟩

/-- The steps of a place fit the steps of its path, one by one. -/
theorem places_fit {v : Json} {ss : List Segment} {ps : List Place} (hv : Indexable v)
    (h : places v ss = .ok ps) {p : Place} (hp : p ∈ ps) :
    List.Forall₂ Segment.Fits ss p.steps := by
  induction ss generalizing v ps p with
  | nil =>
    cases h
    rw [List.mem_singleton.mp hp]
    exact .nil
  | cons s rest ih =>
    obtain ⟨c, w, qs, q, hmove, hqs, hq, rfl⟩ := exists_move_of_mem_places h hp
    obtain ⟨hfit, hw⟩ := hmove.fits hv
    exact .cons hfit (ih hw hqs hq)

/-! ## Steps in written form -/

/-- A step that fits another is concrete. -/
theorem Segment.Fits.isConcrete {s c : Segment} (h : s.Fits c) : c.isConcrete = true := by
  cases h with
  | same h => exact h
  | item => rfl

/-- So are steps that fit others. -/
theorem isConcrete_of_fits {ss cs : List Segment} (h : List.Forall₂ Segment.Fits ss cs) :
    ∀ c ∈ cs, c.isConcrete = true := by
  induction h with
  | nil => simp
  | cons hfit _ ih => exact List.forall_mem_cons.mpr ⟨hfit.isConcrete, ih⟩

/-- A step that another fits is no filter. -/
theorem Segment.Fits.isFilter {s c : Segment} (h : s.Fits c) : c.isFilter = false := by
  cases h with
  | same h => cases s <;> simp_all [Segment.isFilter, Segment.isConcrete]
  | item => rfl

/-- A step that fits another fits it at every place. -/
theorem Segment.Fits.fitsPlace {s c : Segment} (h : s.Fits c) : s.FitsPlace c := by
  cases h with
  | same => exact fun _ => rfl
  | item => intro hc; cases hc

/-- What fits a spelled step is spelled by its written form. -/
theorem Segment.Fits.spelling_render {s c : Segment} {a : List Char} (h : s.Fits c)
    (hs : s.Spelling a) : c.Spelling c.render := by
  cases h with
  | same hconcrete => exact hs.render (Segment.Fits.same hconcrete).isFilter
  | item _ hi => exact spelling_index hi

/-- Steps that fit spelled steps are spelled by their written form. -/
theorem Spelled.render_of_fits {ss cs : List Segment} {t : List Char} (h : Spelled ss t)
    (hfit : List.Forall₂ Segment.Fits ss cs) : Spelled cs (cs.flatMap Segment.render) := by
  induction h generalizing cs with
  | nil =>
    cases hfit
    exact .nil
  | filter hs hspell ignored =>
    cases hfit with
    | cons hfit hnil =>
      cases hnil
      rw [List.flatMap_cons]
      exact .cons hfit.isFilter (hfit.spelling_render hspell) .nil
  | cons hs hspell hrest ih =>
    cases hfit with
    | cons hfit hfits =>
      rw [List.flatMap_cons]
      exact .cons hfit.isFilter (hfit.spelling_render hspell) (ih hfits)

/-- Steps that fit those of a path are what their written form is read as. -/
theorem readPath_render_of_fits {ss cs : List Segment} {t : List Char}
    (ht : Text.Trimmed ('$' :: t)) (h : Spelled ss t) (hfit : List.Forall₂ Segment.Fits ss cs) :
    Text.Trimmed ('$' :: cs.flatMap Segment.render) ∧
      PathReader.readPath ('$' :: cs.flatMap Segment.render) = .ok ⟨cs⟩ := by
  have hconcrete := isConcrete_of_fits hfit
  refine ⟨h.trimmed_render ht (hfit.imp fun _ _ hfit => hfit.fitsPlace), ?_⟩
  exact PathReader.readPath_eq_ok_iff.mpr ⟨_, rfl, h.render_of_fits hfit, .inl hconcrete⟩

/-! ## Results -/

/-- The path of a place is a dollar sign and the texts of its steps. -/
theorem toList_toMatch (p : Place) :
    (p.toMatch "$").path.toList = '$' :: p.steps.flatMap Segment.render := by
  simp [Place.toMatch]

/-- The path of each place is read as the steps of the place. -/
theorem parsePath_toMatch {doc : Json} {q : String} {ss : List Segment} {ps : List Place}
    (hdoc : Indexable doc) (hq : parsePath q = .ok ⟨ss⟩) (hps : places doc ss = .ok ps) {p : Place}
    (hp : p ∈ ps) : parsePath (p.toMatch "$").path = .ok ⟨p.steps⟩ := by
  obtain ⟨t, ht, hspelled, -⟩ :=
    PathReader.readPath_eq_ok_iff.mp (parsePath_eq_ok_iff_readPath.mp hq)
  obtain ⟨htrim, hread⟩ := readPath_render_of_fits (ht ▸ Text.trimmed_strip _) hspelled
    (places_fit hdoc hps hp)
  rw [parsePath_eq_ok_iff_readPath, toList_toMatch, Text.strip_of_trimmed htrim]
  exact hread

/-- Every result has a concrete path, evaluating that path finds this one result, and no two results
have the same path. -/
theorem evaluate_resolves {doc : Json} {q : String} {found : List Match} (hdoc : Indexable doc)
    (h : evaluate doc q = .ok found) :
    (∀ m ∈ found, (∃ path, parsePath m.path = .ok path ∧ path.isConcrete = true) ∧
      evaluate doc m.path = .ok [m]) ∧ (found.map Match.path).Nodup := by
  cases hq : parsePath q with
  | error f =>
    cases f with
    | malformed e =>
      rw [evaluate_of_malformed hq] at h
      cases h
      simp
    | digits f => simp [evaluate, evaluateValue, pathOfValue, hq] at h
  | ok path =>
    obtain ⟨ss⟩ := path
    rw [evaluate_of_parsePath hq] at h
    cases hps : places doc ss with
    | error f => rw [hps] at h; cases h
    | ok ps =>
      rw [hps] at h
      simp only [Except.map, Except.ok.injEq] at h
      subst h
      have hread : ∀ p ∈ ps, parsePath (p.toMatch "$").path = .ok ⟨p.steps⟩ :=
        fun p hp => parsePath_toMatch hdoc hq hps hp
      constructor
      · intro m hm
        obtain ⟨p, hp, rfl⟩ := List.mem_map.mp hm
        refine ⟨⟨_, hread p hp, ?_⟩, ?_⟩
        · exact List.all_eq_true.mpr (isConcrete_of_fits (places_fit hdoc hps hp))
        · rw [evaluate_of_parsePath (hread p hp), places_resolve hps hp]
          rfl
      · rw [List.map_map, List.Nodup, List.pairwise_map]
        -- the steps of a place are read back from its path, so two places do not share one
        refine (places_pairwise hps).imp_of_mem fun hp hp' hne he => hne ?_
        have hsame := hread _ hp
        rw [Function.comp_apply, Function.comp_apply] at he
        rw [he, hread _ hp'] at hsame
        simpa using hsame.symm

/-- A document with blanks in its names and an item that a projection passes by. -/
def spacedDocument : Json :=
  .obj [("a ", .arr [.obj [("b c", .int 1)], .int 2, .obj [("b c", .null)]])]

/-- What a projection finds there. -/
def spacedMatches : List Match := [⟨"$.a [0].b c", .int 1⟩, ⟨"$.a [2].b c", .null⟩]

/-- A path with blanks through a wildcard. -/
theorem evaluate_resolves_spaced :
    Indexable spacedDocument ∧ evaluate spacedDocument " $.a [*].b c\n" = .ok spacedMatches ∧
      (∀ m ∈ spacedMatches, (∃ path, parsePath m.path = .ok path ∧ path.isConcrete = true) ∧
        evaluate spacedDocument m.path = .ok [m]) ∧ (spacedMatches.map Match.path).Nodup := by
  have hobj : ∀ v : Json, v.isScalar = true → Indexable (.obj [("b c", v)]) :=
    fun v hv => .obj (by simpa using Indexable.scalar hv)
  have hlen : 3 ≤ indexLimit := Nat.le_of_lt (lt_indexLimit_iff.mpr (by decide))
  have harr : Indexable (.arr [.obj [("b c", .int 1)], .int 2, .obj [("b c", .null)]]) :=
    .arr hlen (by simpa using ⟨hobj _ rfl, .scalar rfl, hobj _ rfl⟩)
  have hdoc : Indexable spacedDocument := .obj (by simpa using harr)
  have hparse : parsePath " $.a [*].b c\n" = .ok ⟨[.field "a ", .wildcard, .field "b c"]⟩ := by cbv
  have heval : evaluate spacedDocument " $.a [*].b c\n" = .ok spacedMatches := by
    rw [evaluate_of_parsePath hparse]
    rfl
  exact ⟨hdoc, heval, evaluate_resolves hdoc heval⟩

end DocDesk.Query
