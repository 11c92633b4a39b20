import DocDesk.Proofs.Schema.Ground
import DocDesk.Proofs.Schema.Raised

/-!
# Keywords that come to their end

A keyword is ready if the checks below it do what its ground promises.  Then it comes to its end if its
value fits, and all that it finds can be shown.

Main statements: `Task.Ready.complete` (one case for every keyword that applies schemas) and
`complete_keywordFindings`.
-/

namespace DocDesk.Schema

/-- A value is an item or the value of a member of another one. -/
def IsPart (v w : Json) : Prop := ∃ s, Part v s w

/-- The items of an array are its parts. -/
theorem isPart_item {vs : List Json} {v : Json} (h : v ∈ vs) : IsPart (.arr vs) v := by
  obtain ⟨k, hk⟩ := List.mem_iff_getElem?.mp h
  exact ⟨_, .item hk⟩

/-- The values of the members of an object are its parts. -/
theorem isPart_member {ms : List (String × Json)} {m : String × Json} (h : m ∈ ms) :
    IsPart (.obj ms) m.2 := ⟨_, .member h⟩

namespace Task

/-- A keyword at a place where the checks that its ground promises come to their end, and where its own
issues can be shown. -/
structure Ready (t : Task) (g : Ground) : Prop where
  here {schema : Json} : g.here schema = true → (t.here schema).Complete
  valid {schema : Json} : g.valid schema = true → Succeeds (t.isValid schema t.site.data)
  part {schema v : Json} : IsPart t.site.data v → g.part schema = true →
    (t.checker.descend t.scope schema v).Complete
  validPart {schema v : Json} : IsPart t.site.data v → g.validPart schema = true →
    Succeeds (t.isValid schema v)
  name {schema : Json} {ms : List (String × Json)} {m : String × Json} : t.site.data = .obj ms →
    m ∈ ms → g.name schema = true → (t.checker.descend t.scope schema (.str m.1)).Complete
  reference {r : String} : g.reference r = true → ∃ found,
    t.scope.lookup t.checker.library r true = .ok found ∧
      (t.checker.arrive t.scope found t.site.data).Complete
  recursive : g.recursive () = true → ∃ found,
    t.scope.lookupRecursive t.checker.library false = .ok found ∧
      (t.checker.arrive t.scope found t.site.data).Complete
  evaluatedItems {vs : List Json} : g.evaluatedItems () = true → t.site.data = .arr vs →
    Succeeds (Evaluated.indexes t.checker (t.scope.draft = .draft2020) vs evaluationLimit t.scope
      (.obj t.site.schema))
  evaluatedMembers {ms : List (String × Json)} : g.evaluatedMembers () = true → t.site.data = .obj ms →
    Succeeds (Evaluated.names t.checker ms evaluationLimit t.scope (.obj t.site.schema))
  shown (message : String) : (t.site.issue message).Shown

namespace Ready

open Findings (Complete)

variable {t : Task} {d : Draft} {g : Ground}

/-! ## Ways on -/

/-- A check of a part comes to its end wherever its issues are moved to. -/
theorem step (h : t.Ready g) {schema v : Json} (hpart : IsPart t.site.data v)
    (hschema : g.part schema = true) (s : Step) : (t.step s schema v).Complete := by
  unfold Task.step
  split
  · exact h.part hpart hschema
  · exact (h.part hpart hschema).under s

/-- The issue of the keyword itself. -/
theorem issue (h : t.Ready g) (message : String) : (t.issue message).Complete :=
  .ofList (List.forall_mem_singleton.mpr (h.shown message))

/-- Some items, all with one schema. -/
theorem steps (h : t.Ready g) {schema : Json} (hschema : g.part schema = true) (first : Nat)
    {vs : List Json} (hparts : ∀ v ∈ vs, IsPart t.site.data v) : (t.steps first schema vs).Complete := by
  refine .each ?_
  rintro ⟨v, i⟩ hmem
  exact h.step (hparts v (List.fst_mem_of_mem_zipIdx hmem)) hschema _

/-- Some items, each with its own schema. -/
theorem zipped (h : t.Ready g) {schemas : List Json} (hschemas : ∀ x ∈ schemas, g.part x = true)
    {vs : List Json} (hparts : ∀ v ∈ vs, IsPart t.site.data v) : (t.zipped schemas vs).Complete := by
  refine .each ?_
  rintro ⟨⟨v, schema⟩, i⟩ hmem
  have hpair : (v, schema) ∈ vs.zip schemas := List.fst_mem_of_mem_zipIdx hmem
  obtain ⟨hv, hschema⟩ := List.of_mem_zip hpair
  exact h.step (hparts v hv) (hschemas schema hschema) _

/-- A keyword about objects, which may count on the values of all members being parts. -/
theorem onObject {check : List (String × Json) → Except Failure Findings}
    (h : ∀ ms, t.site.data = .obj ms → (∀ m ∈ ms, IsPart t.site.data m.2) →
      (Findings.ofExcept (check ms)).Complete) : (t.onObject check).Complete := by
  unfold Task.onObject
  split
  · next ms hdata => exact h ms hdata fun m hm => hdata ▸ isPart_member hm
  · exact .done

/-- A keyword about arrays, which may count on all items being parts. -/
theorem onArray {check : List Json → Except Failure Findings}
    (h : ∀ vs, t.site.data = .arr vs → (∀ v ∈ vs, IsPart t.site.data v) →
      (Findings.ofExcept (check vs)).Complete) : (t.onArray check).Complete := by
  unfold Task.onArray
  split
  · next vs hdata => exact h vs hdata fun v hv => hdata ▸ isPart_item hv
  · exact .done

/-! ## Items -/

/-- One schema for all items, or one for each. -/
theorem items (h : t.Ready g) (hfits : oneOrEach g.part t.site.argument = true) :
    t.items.Complete := by
  refine onArray fun vs _ hparts => ?_
  generalize t.site.argument = argument at hfits ⊢
  cases argument with
  | arr schemas => exact h.zipped (List.all_eq_true.mp hfits) hparts
  | null | bool _ | int _ | float _ | str _ | obj _ => exact h.steps hfits 0 hparts

/-- The same where the one schema is an object. -/
theorem itemsOfObject (h : t.Ready g) (hfits : objectOrEach g.part t.site.argument = true) :
    t.itemsOfObject.Complete := by
  refine onArray fun vs _ hparts => ?_
  generalize t.site.argument = argument at hfits ⊢
  cases argument with
  | obj ms => exact h.steps hfits 0 hparts
  | arr schemas => exact h.zipped (List.all_eq_true.mp hfits) hparts
  | null | bool _ | int _ | float _ | str _ => cases hfits

/-- One schema for the items behind those that have their own. -/
theorem itemsAfterPrefix (h : t.Ready g)
    (hfront : ifMember t.site.schema "prefixItems" isArray = true)
    (hargument : g.part t.site.argument = true) : t.itemsAfterPrefix.Complete := by
  refine onArray fun vs _ hparts => .bind ?_ fun count _ => ?_
  · rw [Task.beside?]
    cases hmember : Json.member? t.site.schema "prefixItems" with
    | none => exact .ok
    | some v =>
      obtain ⟨schemas, rfl⟩ := isArray_iff.mp (ifMember_iff.mp hfront v hmember)
      exact .ok
  · split
    · exact .done
    · split
      · exact h.issue _
      · exact h.steps hargument _ fun v hv => hparts v (List.mem_of_mem_drop hv)

/-- A schema for each of the first items. -/
theorem prefixItems (h : t.Ready g) (hfits : allItems g.part t.site.argument = true) :
    t.prefixItems.Complete := by
  obtain ⟨schemas, hargument, hschemas⟩ := allItems_iff.mp hfits
  refine onArray fun vs _ hparts => ?_
  rw [hargument]
  exact h.zipped hschemas hparts

/-- A schema for the items that have none of their own, or no such items. -/
theorem additionalItems (h : t.Ready g)
    (hitems : ifMember t.site.schema "items" (fun v => isObject v || isArray v) = true)
    (hargument : ifObject g.part t.site.argument = true) : t.additionalItems.Complete := by
  refine onArray fun vs _ hparts => ?_
  dsimp only
  split
  · exact .done
  · next hother =>
    refine .bind ?_ fun count _ => ?_
    · rw [Task.beside?] at hother ⊢
      cases hmember : Json.member? t.site.schema "items" with
      | none =>
        rw [hmember] at hother
        exact (hother [] rfl).elim
      | some v =>
        rw [hmember] at hother
        -- beside an object the keyword does nothing, and an array has the length that is asked for
        rcases Bool.or_eq_true_iff.mp (ifMember_iff.mp hitems v hmember) with hobject | harray
        · obtain ⟨ms, rfl⟩ := isObject_iff.mp hobject
          exact (hother ms rfl).elim
        · obtain ⟨schemas, rfl⟩ := isArray_iff.mp harray
          exact .ok
    · split
      · next ms hobject =>
        rw [hobject] at hargument
        exact h.steps hargument _ fun v hv => hparts v (List.mem_of_mem_drop hv)
      · split
        · exact h.issue _
        · exact .done

/-- At least one item is valid. -/
theorem contains (h : t.Ready g) (hargument : g.validPart t.site.argument = true) :
    t.contains.Complete := by
  refine onArray fun vs _ hparts => .bind ?_ fun found _ => ?_
  · exact Succeeds.anyM fun v hv => h.validPart (hparts v hv) hargument
  · split
    · exact .done
    · exact h.issue _

/-- The valid items can be counted up to a bound. -/
theorem succeeds_countValid (h : t.Ready g) (hargument : g.validPart t.site.argument = true)
    {most : Json} (hmost : most.isNumber = true) (n : Nat) {vs : List Json}
    (hparts : ∀ v ∈ vs, IsPart t.site.data v) : Succeeds (t.countValid most n vs) := by
  induction vs generalizing n with
  | nil => exact .ok
  | cons v vs ih =>
    obtain ⟨hv, hvs⟩ := List.forall_mem_cons.mp hparts
    rw [Task.countValid]
    refine (h.validPart hv hargument).bind fun valid _ => ?_
    split
    · refine (succeeds_compare rfl hmost).bind fun order _ => ?_
      split
      · exact .ok
      · exact ih _ hvs
    · exact ih _ hvs

/-- A bound beside the keyword is a number, and so is the one that stands in for it. -/
theorem isNumber_beside {name : String} {otherwise : Json} (hotherwise : otherwise.isNumber = true)
    (h : ifMember t.site.schema name Json.isNumber = true) :
    ((t.beside? name).getD otherwise).isNumber = true := by
  rw [Task.beside?]
  cases hmember : Json.member? t.site.schema name with
  | none => exact hotherwise
  | some v => exact ifMember_iff.mp h v hmember

/-- The number of valid items lies between two bounds. -/
theorem containsCounted (h : t.Ready g)
    (hleast : ifMember t.site.schema "minContains" Json.isNumber = true)
    (hmost : ifMember t.site.schema "maxContains" Json.isNumber = true)
    (hargument : g.validPart t.site.argument = true) : t.containsCounted.Complete := by
  refine onArray fun vs _ hparts => ?_
  -- a bound is told under its own keyword, with what the keyword asks for
  have hbound (keyword : String) (hrequired : keyword ≠ "required")
      (hadditional : keyword ≠ "additionalProperties") (argument : Json) (message : String) :
      (Findings.ofList [{ t.site.issue message with keyword := some keyword, argument }]).Complete := by
    refine .ofList (List.forall_mem_singleton.mpr (.of_keyword ?_ ?_))
    · simpa using hrequired
    · simpa using hadditional
  refine .bind (h.succeeds_countValid hargument (isNumber_beside rfl hmost) 0 hparts) fun counted _ => ?_
  split
  · exact hbound "maxContains" (by decide) (by decide) _ _
  · refine .bind (succeeds_compare rfl (isNumber_beside rfl hleast)) fun order _ => ?_
    split
    · exact .done
    · split
      · exact h.issue _
      · exact hbound "minContains" (by decide) (by decide) _ _

/-! ## Members -/

/-- The value of every named member has its own schema. -/
theorem properties (h : t.Ready g) (hfits : allMembers (fun _ => g.part) t.site.argument = true) :
    t.properties.Complete := by
  obtain ⟨schemas, hargument, hschemas⟩ := allMembers_iff.mp hfits
  refine onObject fun ms _ hparts => ?_
  rw [hargument]
  refine .each fun m hm => ?_
  dsimp only
  split
  · next v hv => exact h.step (hparts _ (Json.mem_of_member? hv)) (hschemas m hm) _
  · exact .done

/-- The same where the schema also says whether the member must be there. -/
theorem propertiesWithRequired (h : t.Ready g)
    (hfits : allMembers (fun _ v => isOptional v && g.part v) t.site.argument = true) :
    t.propertiesWithRequired.Complete := by
  obtain ⟨schemas, hargument, hschemas⟩ := allMembers_iff.mp hfits
  refine onObject fun ms _ hparts => ?_
  rw [hargument]
  refine .each ?_
  rintro ⟨name, schema⟩ hm
  obtain ⟨hoptional, hinner⟩ := Bool.and_eq_true_iff.mp (hschemas _ hm)
  dsimp only at hoptional hinner ⊢
  cases hmember : Json.member? ms name with
  | some v => exact h.step (hparts _ (Json.mem_of_member? hmember)) hinner _
  | none =>
    cases schema with
    | obj keywords =>
      dsimp only
      split
      · next flag hflag =>
        rw [if_pos (ifMember_iff.mp hoptional flag hflag)]
        exact .done
      · exact .done
    | null | bool _ | int _ | float _ | str _ | arr _ => cases hoptional

/-- The members whose names a pattern occurs in have its schema. -/
theorem patternProperties (h : t.Ready g)
    (hfits : allMembers (fun p v => isPattern p && g.part v) t.site.argument = true) :
    t.patternProperties.Complete := by
  obtain ⟨schemas, hargument, hschemas⟩ := allMembers_iff.mp hfits
  refine onObject fun ms _ hparts => ?_
  rw [hargument]
  refine .each ?_
  rintro ⟨pattern, schema⟩ hm
  obtain ⟨hpattern, hinner⟩ := Bool.and_eq_true_iff.mp (hschemas _ hm)
  refine .each fun m hmem => .bind (succeeds_patternOccurs hpattern) fun occurs _ => ?_
  split
  · exact h.step (hparts m hmem) hinner _
  · exact .done

/-- It can be told which members are neither named nor matched by a pattern. -/
theorem succeeds_extraNames {schema : List (String × Json)} {patterns : String}
    (hproperties : ifMember schema "properties" isObject = true)
    (hpatterns : patterns = "" ∨ isPattern patterns = true) (ms : List (String × Json)) :
    Succeeds (Task.extraNames schema patterns ms) := by
  have hextra (name : String) : Succeeds (Task.isExtra schema patterns name) := by
    unfold Task.isExtra
    refine Succeeds.bind ?_ fun known _ => ?_
    · cases hmember : Json.member? schema "properties" with
      | none => exact .ok
      | some v =>
        obtain ⟨ps, rfl⟩ := isObject_iff.mp (ifMember_iff.mp hproperties v hmember)
        exact .ok
    · split
      · exact .ok
      · split
        · exact .ok
        · next hsome => exact (succeeds_patternOccurs (hpatterns.resolve_left hsome)).bind fun _ _ => .ok
  induction ms with
  | nil => exact .ok
  | cons m ms ih => exact (hextra m.1).bind fun _ _ => ih.bind fun _ _ => .ok

/-- Members that are neither named nor matched by a pattern have a schema, or must not be there. -/
theorem additionalProperties (h : t.Ready g)
    (hproperties : ifMember t.site.schema "properties" isObject = true)
    (hpatterns : joinsPatterns t.site.schema = true)
    (hargument : ifObject g.part t.site.argument = true) : t.additionalProperties.Complete := by
  refine onObject fun ms _ hparts => ?_
  rw [joinsPatterns] at hpatterns
  cases hjoined : Task.joinedPatterns t.site.schema with
  | error f =>
    rw [hjoined] at hpatterns
    cases hpatterns
  | ok patterns =>
    rw [hjoined] at hpatterns
    have hpatterns : patterns = "" ∨ isPattern patterns = true := by simpa using hpatterns
    refine .bind .ok fun _ heq => ?_
    cases heq
    refine .bind (succeeds_extraNames hproperties hpatterns ms) fun extra _ => ?_
    split
    · next keywords hobject =>
      rw [hobject] at hargument ⊢
      exact .each fun m hm => h.step (hparts m (List.mem_filter.mp hm).1) hargument _
    · split
      · exact h.issue _
      · exact .done

/-- The names of members are themselves checked. -/
theorem propertyNames (h : t.Ready g) (hargument : g.name t.site.argument = true) :
    t.propertyNames.Complete :=
  onObject fun _ hdata _ => .each fun _ hm => h.name hdata hm hargument

/-- What every present member asks for, if each of them may ask for it. -/
theorem onPresent {ask : String → Json → Findings} {p : String → Json → Bool}
    (hfits : allMembers p t.site.argument = true)
    (hask : ∀ name asked, p name asked = true → (ask name asked).Complete) :
    (t.onPresent ask).Complete := by
  obtain ⟨dependencies, hargument, hdependencies⟩ := allMembers_iff.mp hfits
  refine onObject fun ms _ _ => ?_
  rw [hargument]
  refine .each fun m hm => ?_
  dsimp only
  split
  · exact hask _ _ (hdependencies m hm)
  · exact .done

/-- The names that another one asks for are told with the issue of this keyword. -/
theorem missingNames (h : t.Ready g) (property : String) {names : Json}
    (hnames : allItems isText names = true) : (t.missingNames property names).Complete := by
  refine .ofExcept_map (Assertion.succeeds_missingIssues hnames) fun is his i hi => ?_
  obtain ⟨message, rfl⟩ := Assertion.exists_of_mem_missingIssues his hi
  exact h.shown message

/-- A present member asks for other members, or for a schema of the whole value. -/
theorem dependencies (h : t.Ready g)
    (hfits : allMembers (fun _ => asksFor g.here) t.site.argument = true) : t.dependencies.Complete := by
  refine onPresent hfits fun name asked hasked => ?_
  cases asked with
  | arr names => exact h.missingNames name hasked
  | null | bool _ | int _ | float _ | str _ | obj _ => exact h.here hasked

/-- The same where a single name may stand by itself. -/
theorem dependenciesOrName (h : t.Ready g)
    (hfits : allMembers (fun _ => asksForOne g.here) t.site.argument = true) :
    t.dependenciesOrName.Complete := by
  refine onPresent hfits fun name asked hasked => ?_
  cases asked with
  | obj ms => exact h.here hasked
  | str s => exact h.missingNames name rfl
  | arr names => exact h.missingNames name hasked
  | null | bool _ | int _ | float _ => cases hasked

/-- A present member asks for a schema of the whole value. -/
theorem dependentSchemas (h : t.Ready g)
    (hfits : allMembers (fun _ => g.here) t.site.argument = true) : t.dependentSchemas.Complete :=
  onPresent hfits fun _ _ hasked => h.here hasked

/-! ## The value itself -/

/-- Every schema accepts the value. -/
theorem allOf (h : t.Ready g) (hfits : allItems g.here t.site.argument = true) :
    (Applicator.findings t .allOf).Complete := by
  obtain ⟨schemas, hargument, hschemas⟩ := allItems_iff.mp hfits
  rw [Applicator.findings, hargument]
  exact .each fun schema hschema => h.here (hschemas schema hschema)

/-- The first schema that accepts the value is found, with only given ones behind it. -/
theorem exists_firstValid (h : t.Ready g) {schemas : List Json}
    (hschemas : ∀ x ∈ schemas, g.here x = true) :
    ∃ found, t.firstValid schemas = .ok found ∧
      ∀ first others, found = some (first, others) → ∀ x ∈ others, x ∈ schemas := by
  induction schemas with
  | nil => exact ⟨none, rfl, nofun⟩
  | cons schema schemas ih =>
    obtain ⟨hschema, hrest⟩ := List.forall_mem_cons.mp hschemas
    obtain ⟨is, his⟩ := (h.here hschema).collect
    rw [Task.firstValid, his]
    cases is with
    | nil =>
      refine ⟨some (schema, schemas), rfl, fun first others heq x hx => ?_⟩
      cases heq
      exact List.mem_cons_of_mem _ hx
    | cons i is =>
      obtain ⟨found, hfound, hothers⟩ := ih hrest
      exact ⟨found, hfound, fun first others heq x hx =>
        List.mem_cons_of_mem _ (hothers first others heq x hx)⟩

/-- At least one schema accepts the value. -/
theorem anyOf (h : t.Ready g) (hfits : allItems g.here t.site.argument = true) :
    t.anyOf.Complete := by
  obtain ⟨schemas, hargument, hschemas⟩ := allItems_iff.mp hfits
  obtain ⟨found, hfound, -⟩ := h.exists_firstValid hschemas
  rw [Task.anyOf, hargument]
  refine .bind .ok fun _ heq => .bind ?_ fun first _ => ?_
  · cases heq
    exact ⟨found, hfound⟩
  · split
    · exact .done
    · exact h.issue _

/-- Exactly one schema accepts the value. -/
theorem oneOf (h : t.Ready g)
    (hfits : allItems (fun v => g.here v && g.valid v) t.site.argument = true) :
    t.oneOf.Complete := by
  obtain ⟨schemas, hargument, hschemas⟩ := allItems_iff.mp hfits
  obtain ⟨found, hfound, hothers⟩ :=
    h.exists_firstValid fun x hx => (Bool.and_eq_true_iff.mp (hschemas x hx)).1
  rw [Task.oneOf, hargument]
  refine .bind .ok fun _ heq => ?_
  cases heq
  rw [hfound]
  refine .bind .ok fun _ heq => ?_
  cases heq
  split
  · exact h.issue _
  · next first others =>
    have hvalid (x : Json) (hx : x ∈ others) : g.valid x = true :=
      (Bool.and_eq_true_iff.mp (hschemas x (hothers first others rfl x hx))).2
    refine .bind (Succeeds.filterM fun x hx => h.valid (hvalid x hx)) fun also _ => ?_
    split
    · exact .done
    · exact h.issue _

/-- The schema does not accept the value. -/
theorem notValid (h : t.Ready g) (hargument : g.valid t.site.argument = true) :
    t.notValid.Complete := by
  refine .bind (h.valid hargument) fun valid _ => ?_
  split
  · exact h.issue _
  · exact .done

/-- One schema or another, as a third one accepts the value or not. -/
theorem condition (h : t.Ready g) (hargument : g.valid t.site.argument = true)
    (hthen : ifMember t.site.schema "then" g.here = true)
    (helse : ifMember t.site.schema "else" g.here = true) : t.condition.Complete := by
  refine .bind (h.valid hargument) fun valid _ => ?_
  dsimp only
  split
  · next schema hschema =>
    cases valid with
    | true => exact h.here (ifMember_iff.mp hthen schema hschema)
    | false => exact h.here (ifMember_iff.mp helse schema hschema)
  · exact .done

/-! ## References -/

/-- A reference that leads to a schema under which the check ends. -/
theorem byName (h : t.Ready g) (hfits : ifReference g.reference t.site.argument = true) :
    t.reference.Complete := by
  obtain ⟨r, hargument, hr⟩ := exists_of_ifReference hfits
  obtain ⟨found, hfound, hcomplete⟩ := h.reference hr
  unfold Task.reference
  rw [hargument]
  refine .bind ⟨found, hfound⟩ fun other hother => ?_
  rw [hfound] at hother
  cases hother
  exact hcomplete

/-- A reference to the outermost schema that allows it. -/
theorem toOutermost (h : t.Ready g) (hfits : g.recursive () = true) : t.recursive.Complete := by
  obtain ⟨found, hfound, hcomplete⟩ := h.recursive hfits
  refine .bind ⟨found, hfound⟩ fun other hother => ?_
  rw [hfound] at hother
  cases hother
  exact hcomplete

/-! ## Unevaluated parts -/

/-- Items that nothing else evaluates must not be there. -/
theorem unevaluatedItems (h : t.Ready g) (hfits : g.evaluatedItems () = true) :
    t.unevaluatedItems.Complete := by
  refine onArray fun vs hdata _ => .bind (h.evaluatedItems hfits hdata) fun known _ => ?_
  dsimp only
  split
  · exact .done
  · exact h.issue _

/-- Members that nothing else evaluates have a schema. -/
theorem unevaluatedProperties (h : t.Ready g) (hfits : g.evaluatedMembers () = true)
    (hargument : g.part t.site.argument = true) : t.unevaluatedProperties.Complete := by
  refine onObject fun ms hdata hparts => .bind (h.evaluatedMembers hfits hdata) fun known _ => ?_
  refine .bind (Succeeds.mapM fun m hm => ?_) fun told _ => ?_
  · exact (h.part (hparts m (List.mem_filter.mp hm).1) hargument).collect.bind fun _ _ => .ok
  · dsimp only
    split
    · exact .done
    · split
      · exact h.issue _
      · exact h.issue _

/-! ## Types that may be schemas -/

/-- One schema, or several, that the value has to satisfy as well. -/
theorem extending (h : t.Ready g) (hfits : objectOrEach g.here t.site.argument = true) :
    t.extending.Complete := by
  unfold Task.extending
  generalize t.site.argument = argument at hfits ⊢
  cases argument with
  | obj ms => exact h.here hfits
  | arr schemas => exact .each fun schema hschema => h.here (List.all_eq_true.mp hfits schema hschema)
  | null | bool _ | int _ | float _ | str _ => cases hfits

/-- It can be told whether the value is of one of several types. -/
theorem succeeds_isOfAny (h : t.Ready g) (hdraft : t.scope.draft = d) {types : List Json}
    (htypes : ∀ x ∈ types, isTypeOrSchema d g.here x = true) : Succeeds (t.isOfAny types) := by
  induction types with
  | nil => exact .ok
  | cons type types ih =>
    obtain ⟨htype, hrest⟩ := List.forall_mem_cons.mp htypes
    rw [Task.isOfAny.eq_def]
    dsimp only
    split
    · exact .ok
    · next ms =>
      refine (h.here htype).collect.bind fun is _ => ?_
      split
      · exact .ok
      · exact ih hrest
    · next _ hobject =>
      have hname : isTypeName d type = true := by
        cases type with
        | obj ms => exact (hobject ms rfl).elim
        | null | bool _ | int _ | float _ | str _ | arr _ => exact htype
      rw [hdraft]
      refine (Assertion.succeeds_isOfType hname).bind fun fine _ => ?_
      split
      · exact .ok
      · exact ih hrest

/-- The value is of one of several types. -/
theorem typeOrSchema (h : t.Ready g) (hdraft : t.scope.draft = d)
    (hfits : allListed (isTypeOrSchema d g.here) t.site.argument = true) :
    t.typeOrSchema.Complete := by
  obtain ⟨types, hargument, htypes⟩ := exists_of_allListed hfits
  rw [Task.typeOrSchema, hargument]
  refine .bind .ok fun _ heq => ?_
  cases heq
  refine .bind (h.succeeds_isOfAny hdraft htypes) fun fine _ => ?_
  split
  · exact .done
  · exact h.issue _

/-- The value is of none of several types. -/
theorem disallow (h : t.Ready g)
    (hfits : allListed (fun type => g.valid (.obj [("type", .arr [type])])) t.site.argument = true) :
    t.disallow.Complete := by
  obtain ⟨types, hargument, htypes⟩ := exists_of_allListed hfits
  rw [Task.disallow, hargument]
  refine .bind .ok fun _ heq => ?_
  cases heq
  refine .each fun type htype => .bind (h.valid (htypes type htype)) fun valid _ => ?_
  split
  · exact h.issue _
  · exact .done

/-! ## All keywords -/

/-- A keyword that applies schemas comes to its end if its value fits. -/
theorem complete (h : t.Ready g) (hdraft : t.scope.draft = d) {a : Applicator}
    (hfits : a.fits d g t.site.schema t.site.argument = true) : (a.findings t).Complete := by
  cases a with
  | ref | dynamicRef => exact h.byName hfits
  | recursiveRef => exact h.toOutermost hfits
  | unevaluatedItems => exact h.unevaluatedItems hfits
  | unevaluatedProperties =>
    obtain ⟨hevaluated, hargument⟩ := Bool.and_eq_true_iff.mp hfits
    exact h.unevaluatedProperties hevaluated hargument
  | allOf => exact h.allOf hfits
  | anyOf => exact h.anyOf hfits
  | oneOf => exact h.oneOf hfits
  | not => exact h.notValid hfits
  | ifThenElse =>
    obtain ⟨hbranch, helse⟩ := Bool.and_eq_true_iff.mp hfits
    obtain ⟨hargument, hthen⟩ := Bool.and_eq_true_iff.mp hbranch
    exact h.condition hargument hthen helse
  | properties => exact h.properties hfits
  | propertiesWithRequired => exact h.propertiesWithRequired hfits
  | patternProperties => exact h.patternProperties hfits
  | additionalProperties =>
    obtain ⟨hplaces, hargument⟩ := Bool.and_eq_true_iff.mp hfits
    obtain ⟨hproperties, hpatterns⟩ := Bool.and_eq_true_iff.mp hplaces
    exact h.additionalProperties hproperties hpatterns hargument
  | propertyNames => exact h.propertyNames hfits
  | items => exact h.items hfits
  | itemsOfObject => exact h.itemsOfObject hfits
  | itemsAfterPrefix =>
    obtain ⟨hfront, hargument⟩ := Bool.and_eq_true_iff.mp hfits
    exact h.itemsAfterPrefix hfront hargument
  | prefixItems => exact h.prefixItems hfits
  | additionalItems =>
    obtain ⟨hitems, hargument⟩ := Bool.and_eq_true_iff.mp hfits
    exact h.additionalItems hitems hargument
  | contains => exact h.contains hfits
  | containsCounted =>
    obtain ⟨hbounds, hargument⟩ := Bool.and_eq_true_iff.mp hfits
    obtain ⟨hleast, hmost⟩ := Bool.and_eq_true_iff.mp hbounds
    exact h.containsCounted hleast hmost hargument
  | dependencies => exact h.dependencies hfits
  | dependenciesOrName => exact h.dependenciesOrName hfits
  | dependentSchemas => exact h.dependentSchemas hfits
  | «extends» => exact h.extending hfits
  | typeOrSchema => exact h.typeOrSchema hdraft hfits
  | disallow => exact h.disallow hfits

end Ready

end Task

/-- A keyword comes to its end if its value fits. -/
theorem complete_keywordFindings {t : Task} {d : Draft} {k : Known} {g : Ground}
    (hdraft : t.scope.draft = d) (hknown : k.Holds t.site.data)
    (hfits : ∀ r, d.rule? t.site.keyword = some r →
      r.fits d k g t.site.schema t.site.argument = true)
    (hready : (∀ message, (t.site.issue message).Shown) → t.Ready g) :
    (keywordFindings t).Complete := by
  unfold keywordFindings
  rw [hdraft]
  cases hrule : d.rule? t.site.keyword with
  | none => exact .done
  | some r =>
    cases r with
    | assertion a =>
      have ha : a.fits d k t.site.argument = true := hfits _ hrule
      exact .ofExcept_map (Assertion.succeeds_issues hknown ha) fun is his =>
        Assertion.shown_of_mem_issues hrule ha his
    | applicator a =>
      have ha : a.fits d g t.site.schema t.site.argument = true := hfits _ hrule
      exact (hready (Applicator.shown_issue hrule ha)).complete hdraft ha

end DocDesk.Schema
