import DocDesk.Proofs.Schema.Evaluated

/-!
# Schemas under which no check breaks off

A family of surveys, one for each nesting of schemas, is upheld if whatever it lists can be checked one
step with what the survey before it lists: the keywords that count have values that fit, on a ground that
the survey before backs.  Then every check that it lists comes to its end.  The greatest family that is
computed from the schemas themselves says which schemas fit.

Main statements: `Upheld.complete_walk` and `upheld_fits`.
-/

namespace DocDesk.Schema

namespace Survey

variable (w : Survey) (l : Library) (n : Nat) (s : Scope) (ms : List (String × Json))

/-- Whatever a ground promises to the keywords of a schema is listed. -/
structure Backs (g : Ground) : Prop where
  here {schema : Json} : g.here schema = true → w.descends n s schema = true
  valid {schema : Json} : g.valid schema = true → w.asks n s schema = true
  part {schema : Json} : g.part schema = true → w.descendsWithPart n s schema = true
  validPart {schema : Json} : g.validPart schema = true → w.asksOfPart n s schema = true
  name {schema : Json} : g.name schema = true → n ≠ 0 → w.descends 0 s schema = true
  reference {r : String} : g.reference r = true →
    ∃ found, s.lookup l r true = .ok found ∧ w.arrives n s found = true
  recursive : g.recursive () = true →
    ∃ found, s.lookupRecursive l false = .ok found ∧ w.arrives n s found = true
  evaluatedItems : g.evaluatedItems () = true →
    Evaluated.itemsFit l w n (s.draft = .draft2020) Task.evaluationLimit s (.obj ms) = true
  evaluatedMembers : g.evaluatedMembers () = true →
    Evaluated.membersFit l w n Task.evaluationLimit s (.obj ms) = true

/-- What is found by a reference is listed. -/
def arrivesBy (found : Except Failure (Json × Scope)) : Bool :=
  match found with
  | .ok found => w.arrives n s found
  | .error _ => false

/-- The ground that promises all that is listed. -/
def ground : Ground where
  here := w.descends n s
  valid := w.asks n s
  part := w.descendsWithPart n s
  validPart := w.asksOfPart n s
  name schema := n = 0 || w.descends 0 s schema
  reference r := w.arrivesBy n s (s.lookup l r true)
  recursive _ := w.arrivesBy n s (s.lookupRecursive l false)
  evaluatedItems _ :=
    Evaluated.itemsFit l w n (s.draft = .draft2020) Task.evaluationLimit s (.obj ms)
  evaluatedMembers _ := Evaluated.membersFit l w n Task.evaluationLimit s (.obj ms)

variable {w l n s ms}

/-- A reference that leads to what is listed leads somewhere. -/
theorem exists_of_arrivesBy {found : Except Failure (Json × Scope)} (h : w.arrivesBy n s found = true) :
    ∃ there, found = .ok there ∧ w.arrives n s there = true := by
  unfold arrivesBy at h
  split at h
  · next there => exact ⟨there, rfl, h⟩
  · cases h

/-- The ground that promises all that is listed promises no more. -/
theorem backs_ground : w.Backs l n s ms (w.ground l n s ms) where
  here h := h
  valid h := h
  part h := h
  validPart h := h
  name h hn := (Bool.or_eq_true_iff.mp h).resolve_left fun hzero => hn (of_decide_eq_true hzero)
  reference := exists_of_arrivesBy
  recursive := exists_of_arrivesBy
  evaluatedItems h := h
  evaluatedMembers h := h

/-- On a ground that is backed a keyword is ready, if the checker keeps to the survey. -/
theorem Backs.ready {g : Ground} (h : w.Backs l n s ms g) {c : Checker} {k : Known}
    (hlibrary : c.library = l) (hc : c.Keeps k w) {keyword : String} {argument data : Json}
    (hdata : Within k n data)
    (hshown : ∀ message, ((Site.mk keyword argument ms data).issue message).Shown) :
    (Task.mk c s ⟨keyword, argument, ms, data⟩).Ready g where
  here hschema := hc.descend (h.here hschema) hdata
  valid hschema := hc.isValid (h.valid hschema) hdata
  part hpart hschema := hc.descendWithPart hdata hpart (h.part hschema)
  validPart hpart hschema := hc.isPartValid hdata hpart (h.validPart hschema)
  name {schema members m} hobject hm hschema := by
    have hobject : data = .obj members := hobject
    obtain ⟨hn, hname⟩ := Within.name (hobject ▸ hdata) hm
    exact hc.descend (h.name hschema hn) hname
  reference hr := by
    obtain ⟨found, hfound, harrives⟩ := h.reference hr
    exact ⟨found, hlibrary ▸ hfound, hc.arrive harrives hdata⟩
  recursive hr := by
    obtain ⟨found, hfound, harrives⟩ := h.recursive hr
    exact ⟨found, hlibrary ▸ hfound, hc.arrive harrives hdata⟩
  evaluatedItems {vs} hr harray := by
    have harray : data = .arr vs := harray
    exact Evaluated.succeeds_indexes hlibrary hc (harray ▸ hdata) (h.evaluatedItems hr)
  evaluatedMembers {members} hr hobject := by
    have hobject : data = .obj members := hobject
    exact Evaluated.succeeds_names hlibrary hc (hobject ▸ hdata) (h.evaluatedMembers hr)
  shown := hshown

end Survey

/-! ## Families of surveys -/

/-- One step of a check can be made with what a survey lists. -/
inductive Stands (l : Library) (k : Known) (w : Survey) (n : Nat) (d : Draft) (s : Scope) : Json → Prop
  | bool (b : Bool) : Stands l k w n d s (.bool b)
  | keywords {schema : Json} {ms : List (String × Json)} {g : Ground} : applicable d schema = .ok ms →
      w.Backs l n s (membersOf schema) g →
      (∀ m ∈ ms, ∀ r, s.draft.rule? m.1 = some r →
        r.fits s.draft k g (membersOf schema) m.2 = true) → Stands l k w n d s schema

/-- Whatever a family lists can be checked one step with what it lists before. -/
structure Upheld (l : Library) (k : Known) (w : Nat → Survey) : Prop where
  zero {n : Nat} {d : Draft} {s : Scope} {schema : Json} : w 0 n d s schema = false
  step {fuel n : Nat} {d : Draft} {s : Scope} {schema : Json} : w (fuel + 1) n d s schema = true →
    Stands l k (w fuel) n d s schema

/-- One step: all keywords that count come to their end. -/
theorem Stands.complete_walk {l : Library} {k : Known} {w : Survey} {fuel n : Nat} {d : Draft} {s : Scope}
    {schema data : Json} (h : Stands l k w n d s schema)
    (hbelow : (checkerOf l (walk l fuel)).Keeps k w) (hdata : Within k n data) :
    (walk l (fuel + 1) d s schema data).Complete := by
  by_cases hbool : ∃ b, schema = .bool b
  · obtain ⟨b, rfl⟩ := hbool
    cases b with
    | true => exact .done
    | false => exact .found (shown_forbidden data) .done
  · cases h with
    | bool b => exact (hbool ⟨b, rfl⟩).elim
    | keywords happlicable hbacks hfits =>
      have hne (b : Bool) : schema ≠ .bool b := fun heq => hbool ⟨b, heq⟩
      rw [walk.eq_4 l d s schema data fuel (hne true) (hne false)]
      refine .bind ⟨_, happlicable⟩ fun keywords hkeywords => ?_
      rw [happlicable] at hkeywords
      cases hkeywords
      refine .each ?_
      rintro ⟨keyword, argument⟩ hmem
      refine (complete_keywordFindings rfl hdata.known (hfits _ hmem) fun hshown => ?_).through keyword
      exact hbacks.ready rfl hbelow hdata hshown

/-- Whatever an upheld family lists comes to its end. -/
theorem Upheld.complete_walk {l : Library} {k : Known} {w : Nat → Survey} (h : Upheld l k w)
    {fuel n : Nat} {d : Draft} {s : Scope} {schema data : Json} (hw : w fuel n d s schema = true)
    (hdata : Within k n data) : (walk l fuel d s schema data).Complete := by
  -- on the nesting of schemas, as they are walked
  induction fuel generalizing n d s schema data with
  | zero =>
    rw [h.zero] at hw
    cases hw
  | succ fuel ih =>
    exact (h.step hw).complete_walk (.of_walk fun _ _ _ _ _ hw hdata => ih hw hdata) hdata

/-! ## Schemas that fit -/

/-- Which schemas fit: whatever their keywords hand on to, with one level of nesting less, does so too. -/
def fits (l : Library) (k : Known) : Nat → Survey
  | 0, _, _, _, _ => false
  | _ + 1, _, _, _, .bool _ => true
  | fuel + 1, n, d, s, schema =>
    match applicable d schema with
    | .ok ms => ms.all fun m => (s.draft.rule? m.1).all fun r =>
        r.fits s.draft k ((fits l k fuel).ground l n s (membersOf schema)) (membersOf schema) m.2
    | .error _ => false

/-- The schemas that fit are upheld. -/
theorem upheld_fits (l : Library) (k : Known) : Upheld l k (fits l k) where
  zero := rfl
  step {fuel n d s schema} h := by
    by_cases hbool : ∃ b, schema = .bool b
    · obtain ⟨b, rfl⟩ := hbool
      exact .bool b
    · rw [fits.eq_3 l k _ _ _ _ _ fun b heq => hbool ⟨b, heq⟩] at h
      split at h
      · next ms happlicable =>
        refine .keywords happlicable Survey.backs_ground fun m hm r hr => ?_
        have hall := List.all_eq_true.mp h m hm
        rw [hr] at hall
        exact hall
      · cases h

end DocDesk.Schema
