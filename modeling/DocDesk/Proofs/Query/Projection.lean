import DocDesk.Proofs.Query.Overlong
import DocDesk.Proofs.Query.ResultPath
import Mathlib.Data.List.Basic

/-!
# A wildcard as the union of its indexes

A path with a wildcard is fields, the wildcard and fields again.  Putting an index in the place of the
wildcard gives a path that finds what the wildcard finds below the item with that index
(`places_wildcard`), and the text of the one path is the text of the other with the bracket changed
(`parsePath_index`).

Main statement: `evaluate_wildcard_eq_flatMap`.
-/

namespace DocDesk.Query

/-- No field of the steps is a numeral that is too long for an index. -/
def ShortNames (ss : List Segment) : Prop :=
  ∀ name, .field name ∈ ss → isIndexName name = true → name.toList.length ≤ digitLimit

/-- The names of the later steps are short. -/
theorem ShortNames.tail {s : Segment} {ss : List Segment} (h : ShortNames (s :: ss)) :
    ShortNames ss :=
  fun name hmem => h name (List.mem_cons_of_mem _ hmem)

/-- So are those of the last steps. -/
theorem ShortNames.append_right {ss ts : List Segment} (h : ShortNames (ss ++ ts)) :
    ShortNames ts :=
  fun name hmem => h name (List.mem_append_right _ hmem)

/-! ## Places -/

/-- A short name has a child or none, without a fault. -/
theorem child_returns {v : Json} {name : String} {ss : List Segment}
    (h : ShortNames (.field name :: ss)) : ∃ w?, child v name = .ok w? := by
  cases hc : child v name with
  | ok w? => exact ⟨w?, rfl⟩
  | error f =>
    obtain ⟨-, hname, hlen, -⟩ := child_eq_error_iff.mp hc
    exact absurd (h name List.mem_cons_self hname) (Nat.not_le.mpr hlen)

/-- Fields alone lead somewhere or nowhere, without a fault. -/
theorem places_fields_returns {v : Json} {ss : List Segment} (hfields : ∀ s ∈ ss, s.isField = true)
    (hnames : ShortNames ss) : ∃ ps, places v ss = .ok ps := by
  induction ss generalizing v with
  | nil => exact ⟨_, rfl⟩
  | cons s rest ih =>
    cases s with
    | field name =>
      obtain ⟨w?, hw⟩ := child_returns (v := v) hnames
      cases w? with
      | none => exact ⟨[], by simp only [places, hw]⟩
      | some w =>
        obtain ⟨ps, hps⟩ := ih (v := w) (fun s hs => hfields s (List.mem_cons_of_mem _ hs)) hnames.tail
        exact ⟨ps.map (Place.under (.field name)), by simp only [places, hw, hps, Except.map]⟩
    | _ => cases hfields _ List.mem_cons_self

/-- Where every visit succeeds, the results of the items stand one after the other. -/
theorem walkItems_eq_flatMap {α : Type} {visit : Nat → Json → Except Fault (List α)}
    {found : Nat → List α} {items : List Json} {k : Nat}
    (h : ∀ i item, items[i]? = some item → visit (k + i) item = .ok (found (k + i))) :
    walkItems visit k items = .ok ((List.range' k items.length).flatMap found) := by
  induction items generalizing k with
  | nil => rfl
  | cons item items ih =>
    have hhere : visit k item = .ok (found k) := h 0 item rfl
    have hmore := ih (k := k + 1) fun i w hw => by
      rw [Nat.add_assoc, Nat.add_comm 1 i]
      exact h (i + 1) w hw
    simp only [walkItems, hhere, hmore, bind, Except.bind, List.length_cons, List.range'_succ,
      List.flatMap_cons]

/-- Results beyond the last index add nothing. -/
theorem flatMap_range_of_le {α : Type} {found : Nat → List α} {m n : Nat} (hmn : m ≤ n)
    (h : ∀ i, m ≤ i → found i = []) :
    (List.range n).flatMap found = (List.range m).flatMap found := by
  induction hmn with
  | refl => rfl
  | @step n hle ih =>
    rw [List.range_succ, List.flatMap_append, ih, List.flatMap_singleton, h n hle, List.append_nil]

/-- Below an item, the steps behind the bracket lead to the places of the item. -/
theorem places_index {v : Json} {i : Nat} {rest : List Segment} :
    places v (.index i :: rest) =
      match item? v i with
      | some w => (places w rest).map (List.map (Place.under (.index i)))
      | none => .ok [] := rfl

/-- The places of a wildcard right at a value. -/
theorem places_wildcard_here {v : Json} {behind : List Segment}
    (hfields : ∀ s ∈ behind, s.isField = true) (hnames : ShortNames behind) :
    ∃ found : Nat → List Place, (∀ i, places v (.index i :: behind) = .ok (found i)) ∧
      ∀ n, (∀ items, v = .arr items → items.length ≤ n) →
        places v (.wildcard :: behind) = .ok ((List.range n).flatMap found) := by
  cases v with
  | arr items =>
    have hreturns : ∀ i, ∃ ps, places (.arr items) (.index i :: behind) = .ok ps := by
      intro i
      rw [places_index]
      cases item? (.arr items) i with
      | none => exact ⟨[], rfl⟩
      | some w =>
        obtain ⟨ps, hps⟩ := places_fields_returns (v := w) hfields hnames
        exact ⟨ps.map (Place.under (.index i)), by simp only [hps, Except.map]⟩
    choose found hfound using hreturns
    refine ⟨found, hfound, fun n hn => ?_⟩
    have hwalk : places (.arr items) (.wildcard :: behind) =
        .ok ((List.range' 0 items.length).flatMap found) := by
      refine walkItems_eq_flatMap fun i item hitem => ?_
      have hindex := hfound i
      rw [places_index, item?, hitem] at hindex
      rw [Nat.zero_add]
      exact hindex
    -- the bound may lie beyond the array, for an index past its end leads nowhere
    rw [hwalk, ← List.range_eq_range', flatMap_range_of_le (hn items rfl)]
    intro i hi
    have hindex := hfound i
    rw [places_index, item?, List.getElem?_eq_none hi] at hindex
    exact (Except.ok.inj hindex).symm
  | _ => exact ⟨fun _ => [], fun i => rfl, fun n _ => by simp [places]⟩

/-- Behind any fields, the places of the wildcard are those of the indexes, one index after the other.
What stands before the bracket leads to one array at most, and no index beyond it counts. -/
theorem places_wildcard {v : Json} {before behind : List Segment}
    (hbefore : ∀ s ∈ before, s.isField = true) (hbehind : ∀ s ∈ behind, s.isField = true)
    (hnames : ShortNames (before ++ behind)) :
    ∃ found : Nat → List Place, (∀ i, places v (before ++ .index i :: behind) = .ok (found i)) ∧
      ∀ n, (∀ p items, places v before = .ok [p] → p.value = .arr items → items.length ≤ n) →
        places v (before ++ .wildcard :: behind) = .ok ((List.range n).flatMap found) := by
  -- on the fields in front of the bracket: each puts itself in front of all places behind it
  induction before generalizing v with
  | nil =>
    obtain ⟨found, hfound, hall⟩ := places_wildcard_here (v := v) hbehind hnames
    exact ⟨found, hfound, fun n hn => hall n fun items hv => hn ⟨[], v⟩ items rfl hv⟩
  | cons s rest ih =>
    cases s with
    | field name =>
      obtain ⟨w?, hw⟩ := child_returns (v := v) hnames
      cases w? with
      | none =>
        refine ⟨fun _ => [], fun i => ?_, fun n _ => ?_⟩
        · simp only [List.cons_append, places, hw]
        · simp only [List.cons_append, places, hw]
          simp
      | some w =>
        obtain ⟨found, hfound, hall⟩ := ih (v := w)
          (fun s hs => hbefore s (List.mem_cons_of_mem _ hs)) hnames.tail
        refine ⟨fun i => (found i).map (Place.under (.field name)), fun i => ?_, fun n hn => ?_⟩
        · simp only [List.cons_append, places, hw, hfound, Except.map]
        · have hrest := hall n fun p items hp hvalue =>
            hn (p.under (.field name)) items (by simp only [places, hw, hp]; rfl) hvalue
          simp only [List.cons_append, places, hw, hrest, Except.map, List.map_flatMap]
    | _ => cases hbefore _ List.mem_cons_self

/-! ## Texts -/

/-- Fields are spelled by their written form alone, and so is a wildcard among them. -/
theorem Spelled.eq_render {ss : List Segment} {cs : List Char} (h : Spelled ss cs)
    (hss : ∀ s ∈ ss, s.isField = true ∨ s = .wildcard) : cs = ss.flatMap Segment.render := by
  induction h with
  | nil => rfl
  | filter hs =>
    rcases hss _ List.mem_cons_self with hfield | rfl
    · rw [Segment.not_isField_of_isFilter hs] at hfield
      cases hfield
    · cases hs
  | @cons s ss a cs hs h hrest ih =>
    have ha : a = s.render := by
      rcases hss s List.mem_cons_self with hfield | rfl
      · exact h.eq_render hfield
      · cases h
        rfl
    rw [ha, ih fun t ht => hss t (List.mem_cons_of_mem _ ht), List.flatMap_cons]

/-- The spelling of a field has no bracket and no star. -/
theorem Segment.Spelling.notMem_of_isField {s : Segment} {a : List Char} (h : s.Spelling a)
    (hs : s.isField = true) {c : Char} (hc : c ∈ ['[', ']', '*']) : c ∉ a := by
  cases h with
  | field hne hname =>
    intro hmem
    rcases List.mem_cons.mp hmem with rfl | hin
    · simp at hc
    · exact hname c hin (List.mem_cons_of_mem _ hc)
  | _ => cases hs

/-- A text that spells fields has no bracket and no star. -/
theorem Spelled.notMem_of_fields {ss : List Segment} {cs : List Char} (h : Spelled ss cs)
    (hss : ∀ s ∈ ss, s.isField = true) {c : Char} (hc : c ∈ ['[', ']', '*']) : c ∉ cs := by
  induction h with
  | nil => simp
  | filter hs =>
    have hfield := hss _ List.mem_cons_self
    rw [Segment.not_isField_of_isFilter hs] at hfield
    cases hfield
  | @cons s ss a cs hs h hrest ih =>
    rw [List.mem_append, not_or]
    exact ⟨h.notMem_of_isField (hss s List.mem_cons_self) hc,
      ih fun t ht => hss t (List.mem_cons_of_mem _ ht)⟩

/-- What is spelled can be cut behind any of its steps. -/
theorem Spelled.split {ss ts : List Segment} {cs : List Char} (h : Spelled (ss ++ ts) cs)
    (hss : ∀ s ∈ ss, s.isFilter = false) :
    ∃ a b, cs = a ++ b ∧ Spelled ss a ∧ Spelled ts b := by
  induction ss generalizing cs with
  | nil => exact ⟨[], cs, rfl, .nil, h⟩
  | cons s ss ih =>
    rw [List.cons_append] at h
    generalize hws : ss ++ ts = ws at h
    cases h with
    | filter hs => rw [hss s List.mem_cons_self] at hs; cases hs
    | @cons _ _ a cs hs hspell hrest =>
      subst hws
      obtain ⟨a', b, rfl, ha, hb⟩ := ih hrest fun t ht => hss t (List.mem_cons_of_mem _ ht)
      exact ⟨a ++ a', b, (List.append_assoc ..).symm, .cons hs hspell ha, hb⟩

/-- A field is no filter. -/
theorem Segment.isFilter_of_isField {s : Segment} (h : s.isField = true) : s.isFilter = false := by
  cases s <;> simp_all [isFilter, isField]

/-- A path with a wildcard is fields, the wildcard and fields. -/
theorem Shaped.wildcard_split {ss : List Segment} (h : Shaped ss) (hfan : .wildcard ∈ ss) :
    ∃ before behind, ss = before ++ .wildcard :: behind ∧ (∀ s ∈ before, s.isField = true) ∧
      ∀ s ∈ behind, s.isField = true := by
  rcases h with hconcrete | ⟨before, fan, behind, rfl, -, hbefore, hbehind⟩
  · cases hconcrete _ hfan
  · refine ⟨before, behind, ?_, hbefore, hbehind⟩
    rcases List.mem_append.mp hfan with hmem | hmem
    · cases hbefore _ hmem
    · rcases List.mem_cons.mp hmem with rfl | hmem
      · rfl
      · cases hbehind _ hmem

/-- The star of the wildcard is the only one in the text of its path, so the text can be cut at a
bracketed star in one place only. -/
theorem cut_at_wildcard {a b u v : List Char} {before behind : List Segment} {x y : List Char}
    (hu : Text.Blanks u) (hv : Text.Blanks v) (hx : Spelled before x) (hy : Spelled behind y)
    (hbefore : ∀ s ∈ before, s.isField = true) (hbehind : ∀ s ∈ behind, s.isField = true)
    (h : a ++ ['[', '*', ']'] ++ b = u ++ ('$' :: (x ++ (['[', '*', ']'] ++ y))) ++ v) :
    a = u ++ '$' :: x ∧ b = y ++ v := by
  have hleft : '*' ∉ u ++ '$' :: x ++ ['['] := by
    have hstar := hx.notMem_of_fields hbefore (c := '*') (by decide)
    simp [hu.notMem (c := '*') rfl, hstar]
  have hright : '*' ∉ ']' :: (y ++ v) := by
    have hstar := hy.notMem_of_fields hbehind (c := '*') (by decide)
    simp [hv.notMem (c := '*') rfl, hstar]
  have hcut : (u ++ '$' :: x ++ ['[']) ++ '*' :: (']' :: (y ++ v))
      = (a ++ ['[']) ++ '*' :: (']' :: b) := by
    simpa using h.symm
  obtain ⟨hfront, -, hback⟩ := (List.append_cons_inj_of_notMem hleft hright).mp hcut
  exact ⟨(List.append_inj_left' hfront rfl).symm, (List.cons.inj hback).2.symm⟩

/-- An index fits in the place of a wildcard among fields. -/
theorem fits_index {before behind : List Segment} {i : Nat} (hi : i < indexLimit)
    (hbefore : ∀ s ∈ before, s.isField = true) (hbehind : ∀ s ∈ behind, s.isField = true) :
    List.Forall₂ Segment.Fits (before ++ .wildcard :: behind) (before ++ .index i :: behind) := by
  have hsame : ∀ ss : List Segment, (∀ s ∈ ss, s.isField = true) →
      List.Forall₂ Segment.Fits ss ss := fun ss hss =>
    List.forall₂_same.mpr fun s hs => .same (Segment.isConcrete_of_isField (hss s hs))
  exact List.rel_append (hsame before hbefore) (.cons (.item rfl hi) (hsame behind hbehind))

/-- With an index in the place of its wildcard, a path text is read as the path with that index. -/
theorem parsePath_index {a b : String} {before behind : List Segment}
    (hpath : parsePath (a ++ "[*]" ++ b) = .ok ⟨before ++ .wildcard :: behind⟩)
    (hbefore : ∀ s ∈ before, s.isField = true) (hbehind : ∀ s ∈ behind, s.isField = true)
    {i : Nat} (hi : i < indexLimit) :
    parsePath (itemPath a i ++ b) = .ok ⟨before ++ .index i :: behind⟩ := by
  obtain ⟨cs, hstrip, hspelled, -⟩ := spelled_of_parsePath hpath
  obtain ⟨u, v, hu, hv, htext⟩ := Text.strip_split (a ++ "[*]" ++ b).toList
  have htrim := Text.trimmed_strip (a ++ "[*]" ++ b).toList
  rw [hstrip] at htext htrim
  obtain ⟨x, yz, rfl, hx, hyz⟩ := hspelled.split fun s hs => Segment.isFilter_of_isField (hbefore s hs)
  have hnofilter : ∀ s ∈ [Segment.wildcard], s.isFilter = false := by simp [Segment.isFilter]
  obtain ⟨z, y, rfl, hz, hy⟩ := hyz.split hnofilter
  have hstar : z = ['[', '*', ']'] := hz.eq_render (by simp)
  subst hstar
  have htext' : a.toList ++ ['[', '*', ']'] ++ b.toList
      = u ++ ('$' :: (x ++ (['[', '*', ']'] ++ y))) ++ v := by
    simpa using htext
  obtain ⟨ha, hb⟩ := cut_at_wildcard hu hv hx hy hbefore hbehind htext'
  -- the text with the index is read by its steps, written anew
  obtain ⟨htrim', hread⟩ := readPath_render_of_fits htrim hspelled (fits_index hi hbefore hbehind)
  have hrender : '$' :: (before ++ .index i :: behind).flatMap Segment.render
      = '$' :: (x ++ ((Segment.index i).render ++ y)) := by
    rw [List.flatMap_append, List.flatMap_cons,
      hx.eq_render fun s hs => .inl (hbefore s hs), hy.eq_render fun s hs => .inl (hbehind s hs)]
  have hwhole : (itemPath a i ++ b).toList
      = u ++ ('$' :: (before ++ .index i :: behind).flatMap Segment.render) ++ v := by
    rw [hrender, itemPath_eq, String.toList_append, String.toList_append, String.toList_ofList, ha, hb]
    simp
  rw [parsePath_eq_ok_iff_readPath, hwhole, Text.strip_append_of_trimmed hu htrim' (by simp) hv]
  exact hread

/-! ## Results -/

/-- A path text with a bracketed star that is read as a wildcard finds, in this order, what the texts
with the indexes 0, 1, 2, … in the place of the star find, up to the length of the array that the
fields before the bracket lead to.  Where they lead to no array, any bound will do, so that nothing is
found on either side. -/
theorem evaluate_wildcard_eq_flatMap {doc : Json} {a b : String} {ss : List Segment}
    (hpath : parsePath (a ++ "[*]" ++ b) = .ok ⟨ss⟩) (hfan : .wildcard ∈ ss)
    (hnames : ShortNames ss) :
    ∃ found : Nat → List Match,
      (∀ i < indexLimit, evaluate doc (itemPath a i ++ b) = .ok (found i)) ∧
      ∀ n ≤ indexLimit,
        (∀ m items, Path.evaluate ⟨ss.takeWhile Segment.isField⟩ doc = .ok [m] →
          m.value = .arr items → items.length ≤ n) →
        evaluate doc (a ++ "[*]" ++ b) = .ok ((List.range n).flatMap found) := by
  obtain ⟨-, -, -, hshaped⟩ := spelled_of_parsePath hpath
  obtain ⟨before, behind, rfl, hbefore, hbehind⟩ := hshaped.wildcard_split hfan
  have hfront : (before ++ .wildcard :: behind).takeWhile Segment.isField = before :=
    Text.takeWhile_append_of_stop hbefore (by simp [Segment.isField])
  have hshort : ShortNames (before ++ behind) := by
    intro name hmem
    refine hnames name ?_
    rw [List.mem_append] at hmem ⊢
    exact hmem.imp_right (List.mem_cons_of_mem _)
  obtain ⟨found, hfound, hall⟩ := places_wildcard (v := doc) hbefore hbehind hshort
  refine ⟨fun i => (found i).map (Place.toMatch "$"), fun i hi => ?_, fun n _ hn => ?_⟩
  · rw [evaluate_of_parsePath (parsePath_index hpath hbefore hbehind hi), hfound]
    rfl
  · have hplaces := hall n fun p items hp hvalue => by
      refine hn (p.toMatch "$") items ?_ hvalue
      rw [hfront, Path.evaluate, walk_eq_places, hp]
      rfl
    rw [evaluate_of_parsePath hpath, hplaces]
    simp only [Except.map, List.map_flatMap]

/-- Three items below names with blanks. -/
theorem evaluate_wildcard_eq_flatMap_spaced :
    parsePath (" $.a " ++ "[*]" ++ ".b c\n") = .ok ⟨[.field "a ", .wildcard, .field "b c"]⟩ ∧
      ShortNames [.field "a ", .wildcard, .field "b c"] ∧
      ∃ found : Nat → List Match,
        (∀ i < indexLimit, evaluate spacedDocument (itemPath " $.a " i ++ ".b c\n") = .ok (found i)) ∧
        evaluate spacedDocument (" $.a " ++ "[*]" ++ ".b c\n") = .ok ((List.range 3).flatMap found) := by
  have hpath : parsePath (" $.a " ++ "[*]" ++ ".b c\n")
      = .ok ⟨[.field "a ", .wildcard, .field "b c"]⟩ := by cbv
  have hnames : ShortNames [.field "a ", .wildcard, .field "b c"] := by
    intro name hmem hindex
    simp only [List.mem_cons, Segment.field.injEq, List.not_mem_nil, or_false, reduceCtorEq,
      false_or] at hmem
    rcases hmem with rfl | rfl <;> exact absurd hindex (by decide)
  obtain ⟨found, hfound, hall⟩ := @evaluate_wildcard_eq_flatMap spacedDocument " $.a " ".b c\n"
    [.field "a ", .wildcard, .field "b c"] hpath (by simp) hnames
  refine ⟨hpath, hnames, found, hfound, hall 3 (Nat.le_of_lt (lt_indexLimit_iff.mpr (by decide))) ?_⟩
  intro m items hm hvalue
  have hone : Path.evaluate ⟨[.field "a "]⟩ spacedDocument
      = .ok [⟨"$.a ", .arr [.obj [("b c", .int 1)], .int 2, .obj [("b c", .null)]]⟩] := rfl
  have hwhile : [Segment.field "a ", .wildcard, .field "b c"].takeWhile Segment.isField
      = [.field "a "] := rfl
  rw [hwhile, hone] at hm
  cases hm
  cases hvalue
  exact Nat.le_refl 3

end DocDesk.Query
