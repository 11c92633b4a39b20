import DocDesk.Proofs.Schema.Survey

/-!
# Evaluated parts that can be told

It can be told which items and which members of a value a schema evaluates if the checks that this asks
for end, and if the same holds of the schemas that it applies to the same value, along references too.

Main statements: `Evaluated.succeeds_indexes` and `Evaluated.succeeds_names`.
-/

namespace DocDesk.Schema.Evaluated

variable (l : Library) (w : Survey) (n : Nat)

/-! ## Conditions -/

/-- What a schema refers to can be found, with a condition on each place. -/
def referredFit (p : Scope → Json → Bool) (s : Scope) (ms : List (String × Json)) : Bool :=
  match referred l s ms with
  | .ok found => found.all fun r => p r.2 r.1
  | .error _ => false

/-- The condition can be asked, with a condition on the schemas of its branches. -/
def branchesFit (p : Json → Bool) (s : Scope) (ms : List (String × Json)) : Bool :=
  ifMember ms "if" fun v =>
    w.asks n s v && p v && ifMember ms "then" p && ifMember ms "else" p

/-- Alternatives can be gone through, with a condition on each. -/
def listedFit (p : Json → Bool) (v : Json) : Bool :=
  match Shape.items v with
  | .ok schemas => schemas.all p
  | .error _ => false

/-- All alternatives can be gone through and tried, with a condition on each. -/
def alternativesFit (p : Json → Bool) (s : Scope) (ms : List (String × Json)) : Bool :=
  ["allOf", "oneOf", "anyOf"].all fun name =>
    ifMember ms name (listedFit fun v => w.descends n s v && p v)

/-- It can be told which items a schema evaluates. -/
def itemsFit (modern : Bool) : Nat → Scope → Json → Bool
  | _ + 1, _, .bool _ => true
  | fuel + 1, s, .obj ms =>
    match itemIndexes modern ms with
    | .ok none => true
    | .ok (some _) =>
      referredFit l (itemsFit modern fuel) s ms && branchesFit w n (itemsFit modern fuel s) s ms &&
        ["contains", "unevaluatedItems"].all (fun name => ifMember ms name (w.asksOfPart n s)) &&
        alternativesFit w n (itemsFit modern fuel s) s ms
    | .error _ => false
  | _, _, _ => false

/-- The patterns of a schema can be read. -/
def patternsFit (ms : List (String × Json)) : Bool :=
  ifMember ms "patternProperties" (listedFit fun p => isPattern p.plain)

/-- It can be told which members a schema evaluates. -/
def membersFit : Nat → Scope → Json → Bool
  | _ + 1, _, .bool _ => true
  | fuel + 1, s, .obj ms =>
    referredFit l (membersFit fuel) s ms &&
      ["additionalProperties", "unevaluatedProperties"].all (fun name =>
        ifMember ms name fun v => v.isNull || w.descendsWithPart n s v) &&
      patternsFit ms && ifMember ms "dependentSchemas" (allMembers fun _ => membersFit fuel s) &&
      alternativesFit w n (membersFit fuel s) s ms && branchesFit w n (membersFit fuel s) s ms
  | _, _, _ => false

/-! ## What is gone through -/

section Parts

variable {l : Library} {w : Survey} {n : Nat} {c : Checker} {k : Known} {s : Scope}
  {ms : List (String × Json)} {data : Json} {p : Json → Bool}

/-- What fits can be gone through. -/
theorem exists_of_listedFit {v : Json} (h : listedFit p v = true) :
    ∃ vs, Shape.items v = .ok vs ∧ ∀ x ∈ vs, p x = true := by
  unfold listedFit at h
  split at h
  · next vs hvs => exact ⟨vs, hvs, List.all_eq_true.mp h⟩
  · cases h

/-- The references of a schema that fits are found. -/
theorem exists_referred {p : Scope → Json → Bool} (h : referredFit l p s ms = true) :
    ∃ found, referred l s ms = .ok found ∧ ∀ r ∈ found, p r.2 r.1 = true := by
  unfold referredFit at h
  split at h
  · next found hfound => exact ⟨found, hfound, List.all_eq_true.mp h⟩
  · cases h

/-- So are the branches of its condition that apply to a value. -/
theorem exists_branches (hc : c.Keeps k w) (hdata : Within k n data)
    (h : branchesFit w n p s ms = true) :
    ∃ schemas, branches c s ms data = .ok schemas ∧ ∀ x ∈ schemas, p x = true := by
  unfold branches
  cases hif : Json.member? ms "if" with
  | none => exact ⟨[], rfl, nofun⟩
  | some v =>
    have hall := ifMember_iff.mp h v hif
    rw [Bool.and_eq_true, Bool.and_eq_true, Bool.and_eq_true] at hall
    obtain ⟨⟨⟨hasks, hv⟩, hthen⟩, helse⟩ := hall
    have hbranch {name : String} (hfits : ifMember ms name p = true) :
        ∀ x ∈ (Json.member? ms name).toList, p x = true := by
      intro x hx
      exact ifMember_iff.mp hfits x (Option.mem_toList.mp hx)
    obtain ⟨valid, hvalid⟩ := hc.isValid hasks hdata
    dsimp only
    rw [hvalid]
    cases valid with
    | true => exact ⟨_, rfl, List.forall_mem_cons.mpr ⟨hv, hbranch hthen⟩⟩
    | false => exact ⟨_, rfl, hbranch helse⟩

/-- And the alternatives that a value is valid under. -/
theorem exists_alternatives (hc : c.Keeps k w) (hdata : Within k n data)
    (h : alternativesFit w n p s ms = true) :
    ∃ schemas, alternatives c s ms data = .ok schemas ∧ ∀ x ∈ schemas, p x = true := by
  have hlisted : ∀ name ∈ ["allOf", "oneOf", "anyOf"], ∃ vs,
      listed ms name = .ok vs ∧ ∀ x ∈ vs, (w.descends n s x && p x) = true := by
    intro name hname
    have hfits := List.all_eq_true.mp h name hname
    unfold listed
    cases hmember : Json.member? ms name with
    | none => exact ⟨[], rfl, List.forall_mem_nil _⟩
    | some v => exact exists_of_listedFit (ifMember_iff.mp hfits v hmember)
  obtain ⟨schemas, hschemas⟩ :=
    Succeeds.mapM fun name hname => (hlisted name hname).imp fun _ hvs => hvs.1
  have hall : ∀ x ∈ schemas.flatten, (w.descends n s x && p x) = true := by
    intro x hx
    obtain ⟨vs, hvs, hx⟩ := List.mem_flatten.mp hx
    obtain ⟨name, hname, hmember⟩ := exists_of_mem_mapM hschemas hvs
    obtain ⟨vs', hvs', hfits⟩ := hlisted name hname
    rw [hmember] at hvs'
    cases hvs'
    exact hfits x hx
  obtain ⟨kept, hkept⟩ := Succeeds.filterM fun x hx =>
    (hc.descend (Bool.and_eq_true_iff.mp (hall x hx)).1 hdata).isClean
  have htried : alternatives c s ms data =
      schemas.flatten.filterM fun v => (c.descend s v data).isClean :=
    congrArg (· >>= fun schemas : List (List Json) =>
      schemas.flatten.filterM fun v => (c.descend s v data).isClean) hschemas
  refine ⟨kept, htried.trans hkept, fun x hx => ?_⟩
  exact (Bool.and_eq_true_iff.mp (hall x (mem_of_mem_filterM hkept hx))).2

end Parts

/-! ## What can be told -/

section Told

variable {l : Library} {w : Survey} {n : Nat} {c : Checker} {k : Known} {s : Scope} {schema : Json}

/-- It can be told which items are valid under a schema. -/
theorem succeeds_validIndexes (hc : c.Keeps k w) {vs : List Json} (hdata : Within k n (.arr vs))
    (h : w.asksOfPart n s schema = true) : Succeeds (validIndexes c s schema vs) := by
  refine Succeeds.bind (Succeeds.filterM ?_) fun _ _ => .ok
  rintro ⟨v, i⟩ hmem
  exact hc.isPartValid hdata (isPart_item (List.fst_mem_of_mem_zipIdx hmem)) h

/-- It can be told which members are valid under a schema. -/
theorem succeeds_validNames (hc : c.Keeps k w) {ms : List (String × Json)}
    (hdata : Within k n (.obj ms)) (h : w.descendsWithPart n s schema = true) :
    Succeeds (validNames c s schema ms) :=
  Succeeds.bind (Succeeds.filterM fun _ hm =>
    (hc.descendWithPart hdata (isPart_member hm) h).isClean) fun _ _ => .ok

/-- It can be told which names the patterns of a schema occur in. -/
theorem succeeds_patternNames {ms : List (String × Json)} (h : patternsFit ms = true)
    (data : List (String × Json)) : Succeeds (patternNames ms data) := by
  unfold patternNames
  cases hmember : Json.member? ms "patternProperties" with
  | none => exact .ok
  | some v =>
    obtain ⟨patterns, hpatterns, hfits⟩ := exists_of_listedFit (ifMember_iff.mp h v hmember)
    dsimp only
    rw [hpatterns]
    refine Succeeds.ok.bind fun _ heq => ?_
    cases heq
    refine Succeeds.bind (Succeeds.filterM fun m _ => ?_) fun _ _ => .ok
    exact Succeeds.anyM fun x hx => succeeds_patternOccurs (hfits x hx)

/-- The schemas that present members ask for. -/
theorem exists_dependents {p : Json → Bool} {ms : List (String × Json)}
    (h : ifMember ms "dependentSchemas" (allMembers fun _ => p) = true) (data : List (String × Json)) :
    ∃ schemas, dependents ms data = .ok schemas ∧ ∀ x ∈ schemas, p x = true := by
  unfold dependents
  cases hmember : Json.member? ms "dependentSchemas" with
  | none => exact ⟨[], rfl, nofun⟩
  | some v =>
    obtain ⟨asked, rfl, hasked⟩ := allMembers_iff.mp (ifMember_iff.mp h v hmember)
    refine ⟨_, rfl, fun x hx => ?_⟩
    obtain ⟨m, hm, rfl⟩ := List.mem_map.mp hx
    exact hasked m (List.mem_filter.mp hm).1

/-- It can be told which items a schema evaluates that fits. -/
theorem succeeds_indexes (hlibrary : c.library = l) (hc : c.Keeps k w) {modern : Bool} {vs : List Json}
    (hdata : Within k n (.arr vs)) {fuel : Nat} (h : itemsFit l w n modern fuel s schema = true) :
    Succeeds (indexes c modern vs fuel s schema) := by
  induction fuel generalizing s schema with
  | zero => cases schema <;> cases h
  | succ fuel ih =>
    cases schema with
    | bool b => exact .ok
    | obj ms =>
      rw [itemsFit] at h
      rw [indexes]
      split at h
      · next hindexes =>
        rw [hindexes]
        exact .ok
      · next direct hindexes =>
        rw [hindexes]
        simp only [Bool.and_eq_true] at h
        obtain ⟨⟨⟨hreferred, hbranches⟩, hvalid⟩, halternatives⟩ := h
        obtain ⟨far, hfar, hfars⟩ := exists_referred hreferred
        obtain ⟨chosen, hchosen, hchosens⟩ := exists_branches hc hdata hbranches
        obtain ⟨combined, hcombined, hcombineds⟩ := exists_alternatives hc hdata halternatives
        refine Succeeds.ok.bind fun _ heq => ?_
        cases heq
        dsimp only
        rw [hlibrary, hfar, hchosen, hcombined]
        refine Succeeds.ok.bind fun _ heq => ?_
        cases heq
        refine (Succeeds.mapM fun r hr => ih (hfars r hr)).bind fun _ _ => ?_
        refine Succeeds.ok.bind fun _ heq => ?_
        cases heq
        refine (Succeeds.mapM fun x hx => ih (hchosens x hx)).bind fun _ _ => ?_
        refine Succeeds.bind (Succeeds.mapM fun x hx => ?_) fun _ _ => ?_
        · obtain ⟨name, hname, hx⟩ := List.mem_filterMap.mp hx
          have hfits := List.all_eq_true.mp hvalid name hname
          exact succeeds_validIndexes hc hdata (ifMember_iff.mp hfits x hx)
        · refine Succeeds.ok.bind fun _ heq => ?_
          cases heq
          exact (Succeeds.mapM fun x hx => ih (hcombineds x hx)).bind fun _ _ => .ok
      · cases h
    | null | int _ | float _ | str _ | arr _ => cases h

/-- It can be told which members a schema evaluates that fits. -/
theorem succeeds_names (hlibrary : c.library = l) (hc : c.Keeps k w) {data : List (String × Json)}
    (hdata : Within k n (.obj data)) {fuel : Nat} (h : membersFit l w n fuel s schema = true) :
    Succeeds (names c data fuel s schema) := by
  induction fuel generalizing s schema with
  | zero => cases schema <;> cases h
  | succ fuel ih =>
    cases schema with
    | bool b => exact .ok
    | obj ms =>
      rw [membersFit] at h
      rw [names]
      simp only [Bool.and_eq_true] at h
      obtain ⟨⟨⟨⟨⟨hreferred, hvalid⟩, hpatterns⟩, hdependents⟩, halternatives⟩, hbranches⟩ := h
      obtain ⟨far, hfar, hfars⟩ := exists_referred hreferred
      obtain ⟨asked, hasked, haskeds⟩ := exists_dependents hdependents data
      obtain ⟨chosen, hchosen, hchosens⟩ := exists_branches hc hdata hbranches
      obtain ⟨combined, hcombined, hcombineds⟩ := exists_alternatives hc hdata halternatives
      rw [hlibrary, hfar, hasked, hchosen, hcombined]
      refine Succeeds.ok.bind fun _ heq => ?_
      cases heq
      refine (Succeeds.mapM fun r hr => ih (hfars r hr)).bind fun _ _ => ?_
      refine Succeeds.bind (Succeeds.mapM fun x hx => ?_) fun _ _ => ?_
      · obtain ⟨hx, hnull⟩ := List.mem_filter.mp hx
        obtain ⟨name, hname, hx⟩ := List.mem_filterMap.mp hx
        have hfits := ifMember_iff.mp (List.all_eq_true.mp hvalid name hname) x hx
        have hnull : x.isNull = false := by
          cases x with
          | null => cases hnull
          | bool _ | int _ | float _ | str _ | arr _ | obj _ => rfl
        rw [hnull, Bool.false_or] at hfits
        exact succeeds_validNames hc hdata hfits
      · refine (succeeds_patternNames hpatterns data).bind fun _ _ => ?_
        refine Succeeds.ok.bind fun _ heq => ?_
        cases heq
        refine (Succeeds.mapM fun x hx => ih (haskeds x hx)).bind fun _ _ => ?_
        refine Succeeds.ok.bind fun _ heq => ?_
        cases heq
        refine (Succeeds.mapM fun x hx => ih (hcombineds x hx)).bind fun _ _ => ?_
        refine Succeeds.ok.bind fun _ heq => ?_
        cases heq
        exact (Succeeds.mapM fun x hx => ih (hchosens x hx)).bind fun _ _ => .ok
    | null | int _ | float _ | str _ | arr _ => cases h

end Told

end DocDesk.Schema.Evaluated
