import DocDesk.Proofs.Json.Everywhere
import DocDesk.Proofs.Schema.Findings

/-!
# How keywords come to their issues

A keyword raises issues of its own about the value at its site, or hands on to other schemas: the value
itself, the parts of the value, or the names of its members.  Which of the three it does shows in its
name, whatever the draft.

Main statements: `Applicator.builds` (one case for every keyword that applies schemas),
`Task.Builds.raised` and `mem_walk`.
-/

namespace DocDesk.Schema

/-! ## What a keyword hands on -/

/-- A part of a value, and the step to it. -/
inductive Part : Json → Step → Json → Prop
  | item {vs : List Json} {k : Nat} {v : Json} : vs[k]? = some v → Part (.arr vs) (.index k) v
  | member {ms : List (String × Json)} {name : String} {v : Json} :
      (name, v) ∈ ms → Part (.obj ms) (.name name) v

/-- What of a value a keyword hands on to other schemas. -/
inductive Reach where
  | whole
  | parts
  | names
deriving DecidableEq, Repr

/-- What a keyword that applies schemas hands on. -/
def Applicator.reach : Applicator → Reach
  | .properties | .propertiesWithRequired | .patternProperties | .additionalProperties | .items
  | .itemsOfObject | .itemsAfterPrefix | .prefixItems | .additionalItems => .parts
  | .propertyNames => .names
  | _ => .whole

/-- What a keyword hands on; one about a single value hands on nothing else. -/
def Rule.reach : Rule → Reach
  | .assertion _ => .whole
  | .applicator a => a.reach

/-- The keywords that hand on the parts of a value. -/
def partKeywords : List String :=
  ["properties", "patternProperties", "additionalProperties", "items", "prefixItems",
    "additionalItems"]

/-- The keyword that hands on the names of members. -/
def nameKeyword : String := "propertyNames"

/-- What a keyword of this name hands on. -/
def reachOf (keyword : String) : Reach :=
  if keyword ∈ partKeywords then .parts else if keyword = nameKeyword then .names else .whole

/-- Under no draft does a keyword hand on anything else than its name says. -/
theorem reach_of_rule? {d : Draft} {keyword : String} {r : Rule} (h : d.rule? keyword = some r) :
    r.reach = reachOf keyword := by
  -- every entry of the six tables is looked at once
  have htable : ∀ p ∈ d.keywords, p.2.reach = reachOf p.1 := by
    cases d <;> decide +kernel
  obtain ⟨front, behind, hsplit, -⟩ := List.lookup_eq_some_iff.mp h
  exact htable (keyword, r) (hsplit ▸ List.mem_append_right front List.mem_cons_self)

/-! ## Issues of a site -/

/-- An issue that a keyword raises about the value at its site.  Only bounds on a number of items are
told under a keyword of their own. -/
structure Site.Own (s : Site) (i : Issue) : Prop where
  path : i.path = []
  trail : i.trail = []
  data : i.data = s.data
  schema : i.schema = .obj s.schema
  keyword : i.keyword ∈ [some s.keyword, some "minContains", some "maxContains"]

namespace Site

variable {s : Site} {i : Issue} {message : String} {fine : Bool}

/-- The issue of a site is about its own value, keyword and schema. -/
theorem own_issue : s.Own (s.issue message) :=
  ⟨rfl, rfl, rfl, rfl, List.mem_cons_self⟩

/-- So is an issue of something that is asked for. -/
theorem own_of_mem_demand (h : i ∈ s.demand fine message) : s.Own i := by
  unfold demand at h
  split at h
  · cases h
  · rw [List.mem_singleton.mp h]
    exact own_issue

end Site

namespace Assertion

/-- Issues that are raised about the value at a site, unless the check breaks off. -/
def Raises (s : Site) (found : Except Failure (List Issue)) : Prop :=
  ∀ is, found = .ok is → ∀ i ∈ is, s.Own i

namespace Raises

variable {s : Site} {message : String} {fine : Bool}

/-- A check that breaks off raises nothing. -/
theorem error {f : Failure} : Raises s (.error f) := nofun

/-- A check that finds nothing raises nothing. -/
theorem none : Raises s (pure []) := by
  intro is h i hi
  cases h
  cases hi

/-- What is asked for is asked of the value at the site. -/
theorem demand : Raises s (pure (s.demand fine message)) := by
  intro is h i hi
  cases h
  exact Site.own_of_mem_demand hi

/-- What comes behind a reading of the schema raises what it would raise by itself. -/
theorem bind {x : Except Failure α} {f : α → Except Failure (List Issue)}
    (h : ∀ a, Raises s (f a)) : Raises s (x >>= f) := by
  cases x with
  | error e => exact error
  | ok a => exact h a

/-- Checks one after the other raise what each of them raises. -/
theorem flatten {xs : List α} {f : α → Except Failure (List Issue)} (h : ∀ x, Raises s (f x)) :
    Raises s (xs.mapM f >>= fun found => pure found.flatten) := by
  induction xs with
  | nil => exact none
  | cons x xs ih =>
    intro is his i hi
    rw [List.mapM_cons] at his
    obtain ⟨found, hfound, his⟩ := exists_of_bind_eq_ok his
    obtain ⟨first, hfirst, hfound⟩ := exists_of_bind_eq_ok hfound
    obtain ⟨rest, hrest, hfound⟩ := exists_of_bind_eq_ok hfound
    cases hfound
    cases his
    rcases List.mem_append.mp hi with hi | hi
    · exact h x first hfirst i hi
    · exact ih rest.flatten (by rw [hrest]; rfl) i hi

/-- Missing names are told of the value that lacks them. -/
theorem missingIssues (names : Json) (words : Json → String) :
    Raises s (missingIssues s names words) := by
  unfold Assertion.missingIssues
  split
  · apply bind
    intro listed
    apply bind
    intro missing is h i hi
    cases h
    obtain ⟨n, -, rfl⟩ := List.mem_map.mp hi
    exact Site.own_issue
  · exact none

/-- So are the names that a member asks for. -/
theorem dependentRequiredIssues : Raises s (dependentRequiredIssues s) := by
  unfold Assertion.dependentRequiredIssues
  split
  · apply bind
    intro dependencies
    exact flatten fun d => missingIssues d.2 _
  · exact none

/-- Bounds are about the value itself. -/
theorem boundIssues (sign : String) (wrong : Ordering → Bool) (words : String) :
    Raises s (boundIssues s sign wrong words) := by
  unfold Assertion.boundIssues
  split
  · exact none
  · exact bind fun order => demand

/-- So are smallest sizes. -/
theorem leastIssues (size : Option Nat) (words : String) : Raises s (leastIssues s size words) := by
  unfold Assertion.leastIssues
  split
  · exact none
  · exact bind fun order => demand

/-- So are greatest sizes. -/
theorem mostIssues (size : Option Nat) (words : String) : Raises s (mostIssues s size words) := by
  unfold Assertion.mostIssues
  split
  · exact none
  · exact bind fun order => demand

/-- A keyword about a single value raises its issues about the value at its site. -/
theorem issues (d : Draft) (s : Site) (a : Assertion) : Raises s (a.issues d s) := by
  cases a with
  | type => exact bind fun types => bind fun fine => demand
  | enum => exact bind fun values => demand
  | const => exact demand
  | multipleOf =>
    rw [Assertion.issues]
    split
    · exact none
    · exact bind fun fine => demand
  | minimum | maximum | exclusiveMinimum | exclusiveMaximum | minimumOrAbove | maximumOrBelow =>
    exact boundIssues _ _ _
  | minLength | minItems | minProperties => exact leastIssues _ _
  | maxLength | maxItems | maxProperties => exact mostIssues _ _
  | pattern =>
    rw [Assertion.issues]
    split
    · exact bind fun fine => demand
    · exact error
    · exact none
  | format =>
    rw [Assertion.issues]
    split
    · exact error
    · exact error
    · split
      · exact demand
      · exact error
    · exact none
  | uniqueItems =>
    rw [Assertion.issues]
    split
    · exact demand
    · exact none
  | required => exact missingIssues _ _
  | dependentRequired => exact dependentRequiredIssues

end Raises

end Assertion

/-! ## Ways to an issue -/

/-- The ways in which a keyword comes to an issue, as to what it hands on.  In draft 3 a missing member
is told by the keyword for members, under another keyword and with its name as the step. -/
inductive Raised (t : Task) (i : Issue) : Reach → Prop
  | own {r : Reach} : r ≠ .names → t.site.Own i → Raised t i r
  | here {schema : Json} : i ∈ t.here schema → Raised t i .whole
  | arrived {found : Json × Scope} :
      i ∈ t.checker.arrive t.scope found t.site.data → Raised t i .whole
  | part {s : Step} {v schema : Json} :
      Part t.site.data s v → i ∈ t.step s schema v → Raised t i .parts
  | missing {ms : List (String × Json)} {name : String} : t.site.data = .obj ms →
      Json.member? ms name = none → i.path = [.name name] → i.trail = [] →
      i.keyword = some "required" → i.data = t.site.data → Raised t i .parts
  | name {ms : List (String × Json)} {m : String × Json} : t.site.data = .obj ms → m ∈ ms →
      i ∈ t.checker.descend t.scope t.site.argument (.str m.1) → Raised t i .names

/-- How the findings of a keyword are put together, as to what it hands on: from issues of its own, and
from all that is found by the schemas that it hands on to. -/
inductive Task.Builds (t : Task) : Reach → Findings → Prop
  | done {r : Reach} : t.Builds r .done
  | broken {r : Reach} {f : Failure} : t.Builds r (.broken f)
  | own {r : Reach} {is : List Issue} : r ≠ .names → (∀ i ∈ is, t.site.Own i) →
      t.Builds r (.ofList is)
  | here {schema : Json} : t.Builds .whole (t.here schema)
  | arrived {found : Json × Scope} :
      t.Builds .whole (t.checker.arrive t.scope found t.site.data)
  | part {s : Step} {v schema : Json} : Part t.site.data s v → t.Builds .parts (t.step s schema v)
  | missing {ms : List (String × Json)} {name : String} {i : Issue} : t.site.data = .obj ms →
      Json.member? ms name = none → i.path = [.name name] → i.trail = [] →
      i.keyword = some "required" → i.data = t.site.data → t.Builds .parts (.ofList [i])
  | name {ms : List (String × Json)} {m : String × Json} : t.site.data = .obj ms → m ∈ ms →
      t.Builds .names (t.checker.descend t.scope t.site.argument (.str m.1))
  | append {r : Reach} {fs : Findings} {next : Unit → Findings} : t.Builds r fs →
      t.Builds r (next ()) → t.Builds r (fs.append next)

namespace Task.Builds

variable {t : Task} {r : Reach} {fs : Findings}

/-- Every issue of such findings has come in one of the ways. -/
theorem raised (h : t.Builds r fs) {i : Issue} (hi : i ∈ fs) : Raised t i r := by
  induction h with
  | done => cases hi
  | broken => cases hi
  | own hr hown => exact .own hr (hown i (Findings.mem_ofList.mp hi))
  | here => exact .here hi
  | arrived => exact .arrived hi
  | part hpart => exact .part hpart hi
  | missing hdata hlacks hpath htrail hrequired hvalue =>
    rw [Findings.mem_ofList, List.mem_singleton] at hi
    rw [hi]
    exact .missing hdata hlacks hpath htrail hrequired hvalue
  | name hdata hmem => exact .name hdata hmem hi
  | append _ _ ih ihnext => exact (Findings.mem_append hi).elim ih ihnext

theorem error {f : Failure} : t.Builds r (.ofExcept (.error f)) := broken

theorem bind {x : Except Failure α} {f : α → Except Failure Findings}
    (h : ∀ a, t.Builds r (.ofExcept (f a))) : t.Builds r (.ofExcept (x >>= f)) := by
  cases x with
  | error e => exact broken
  | ok a => exact h a

/-- Checks one after the other are built of what each of them finds. -/
theorem each {xs : List α} {check : α → Findings} (h : ∀ x ∈ xs, t.Builds r (check x)) :
    t.Builds r (.each xs check) := by
  induction xs with
  | nil => exact done
  | cons x xs ih =>
    obtain ⟨hx, hxs⟩ := List.forall_mem_cons.mp h
    exact append hx (ih hxs)

/-- A keyword tells of the value at its site, except where names are checked. -/
theorem issue (hr : r ≠ .names) (message : String) : t.Builds r (t.issue message) :=
  own hr (List.forall_mem_singleton.mpr Site.own_issue)

/-- The issues of a keyword about a single value. -/
theorem raises (hr : r ≠ .names) {found : Except Failure (List Issue)}
    (h : Assertion.Raises t.site found) : t.Builds r (.ofExcept (found.map .ofList)) := by
  cases found with
  | error e => exact broken
  | ok is => exact own hr (h is rfl)

/-- What is built for an object is built for every value: there are no findings for others. -/
theorem onObject {check : List (String × Json) → Except Failure Findings}
    (h : ∀ ms, t.site.data = .obj ms → t.Builds r (.ofExcept (check ms))) :
    t.Builds r (t.onObject check) := by
  unfold Task.onObject
  split
  · next ms hdata => exact h ms hdata
  · exact done

/-- What is built for an array is built for every value. -/
theorem onArray {check : List Json → Except Failure Findings}
    (h : ∀ vs, t.site.data = .arr vs → t.Builds r (.ofExcept (check vs))) :
    t.Builds r (t.onArray check) := by
  unfold Task.onArray
  split
  · next vs hdata => exact h vs hdata
  · exact done

/-! ### Items -/

/-- The items from a place on are parts of the value. -/
theorem steps {vs : List Json} (hdata : t.site.data = .arr vs) (first : Nat) (schema : Json) :
    t.Builds .parts (t.steps first schema (vs.drop first)) := by
  apply each
  rintro ⟨v, i⟩ hmem
  refine part ?_
  rw [hdata]
  -- the numbers go on from where the items begin, so that they are indexes of the whole array
  obtain ⟨hle, hget⟩ := List.mem_zipIdx_iff_le_and_getElem?_sub.mp hmem
  rw [List.getElem?_drop, Nat.add_sub_cancel' hle] at hget
  exact .item hget

/-- So are items with a schema each. -/
theorem zipped {vs : List Json} (hdata : t.site.data = .arr vs) (schemas : List Json) :
    t.Builds .parts (t.zipped schemas vs) := by
  apply each
  rintro ⟨⟨v, schema⟩, i⟩ hmem
  refine part ?_
  rw [hdata]
  have hget := List.mem_zipIdx_iff_getElem?.mp hmem
  exact .item (List.getElem?_zip_eq_some.mp hget).1

/-- The items of an array are checked as parts. -/
theorem items : t.Builds .parts t.items := by
  apply onArray
  intro vs hdata
  split
  · exact zipped hdata _
  · exact steps hdata 0 _

/-- So are they where a schema for all items is an object. -/
theorem itemsOfObject : t.Builds .parts t.itemsOfObject := by
  apply onArray
  intro vs hdata
  split
  · exact steps hdata 0 _
  · exact bind fun schemas => zipped hdata schemas

/-- So are the items behind those with schemas of their own. -/
theorem itemsAfterPrefix : t.Builds .parts t.itemsAfterPrefix := by
  apply onArray
  intro vs hdata
  apply bind
  intro count
  split
  · exact done
  · split
    · exact issue (by decide) _
    · exact steps hdata count _

theorem prefixItems : t.Builds .parts t.prefixItems := by
  apply onArray
  intro vs hdata
  exact bind fun schemas => zipped hdata schemas

theorem additionalItems : t.Builds .parts t.additionalItems := by
  apply onArray
  intro vs hdata
  dsimp only
  split
  · exact done
  · apply bind
    intro count
    split
    · exact steps hdata count _
    · split
      · exact issue (by decide) _
      · exact done

theorem contains : t.Builds .whole t.contains := by
  apply onArray
  intro vs _
  apply bind
  intro found
  split
  · exact done
  · exact issue (by decide) _

theorem containsCounted : t.Builds .whole t.containsCounted := by
  apply onArray
  intro vs _
  -- a bound is told under its own keyword, with what the keyword asks for
  have hbound (keyword : String) (hkeyword : keyword ∈ ["minContains", "maxContains"])
      (argument : Json) (message : String) : t.Builds .whole
        (.ofList [{ t.site.issue message with keyword := some keyword, argument }]) := by
    refine own (by decide) (List.forall_mem_singleton.mpr ⟨rfl, rfl, rfl, rfl, ?_⟩)
    simpa using .inr (by simpa using hkeyword)
  apply bind
  intro counted
  split
  · exact hbound "maxContains" (by decide) _ _
  · apply bind
    intro order
    split
    · exact done
    · split
      · exact issue (by decide) _
      · exact hbound "minContains" (by decide) _ _

theorem unevaluatedItems : t.Builds .whole t.unevaluatedItems := by
  apply onArray
  intro vs _
  apply bind
  intro known
  dsimp only
  split
  · exact done
  · exact issue (by decide) _

/-! ### Members -/

theorem properties : t.Builds .parts t.properties := by
  apply onObject
  intro ms hdata
  apply bind
  intro schemas
  apply each
  rintro ⟨name, schema⟩ _
  dsimp only
  split
  · next v hv =>
    refine part ?_
    rw [hdata]
    exact .member (Json.mem_of_member? hv)
  · exact done

theorem propertiesWithRequired : t.Builds .parts t.propertiesWithRequired := by
  apply onObject
  intro ms hdata
  apply bind
  intro schemas
  apply each
  rintro ⟨name, schema⟩ -
  dsimp only
  split
  · next hv =>
    refine part ?_
    rw [hdata]
    exact .member (Json.mem_of_member? hv)
  · next hlacks =>
    split
    · split
      · exact done
      · -- the only issue whose last step leads to no part
        exact missing hdata hlacks rfl rfl rfl rfl
    · exact done
  · exact broken

theorem patternProperties : t.Builds .parts t.patternProperties := by
  apply onObject
  intro ms hdata
  apply bind
  intro schemas
  apply each
  rintro ⟨pattern, schema⟩ _
  apply each
  rintro ⟨name, v⟩ hmem
  apply bind
  intro occurs
  split
  · refine part ?_
    rw [hdata]
    exact .member hmem
  · exact done

theorem additionalProperties : t.Builds .parts t.additionalProperties := by
  apply onObject
  intro ms hdata
  apply bind
  intro patterns
  apply bind
  intro extra
  split
  · apply each
    rintro ⟨name, v⟩ hmem
    refine part ?_
    rw [hdata]
    exact .member ((List.mem_filter.mp hmem).1)
  · split
    · exact issue (by decide) _
    · exact done

theorem propertyNames : t.Builds .names t.propertyNames := by
  apply onObject
  intro ms hdata
  apply each
  intro m hmem
  exact name hdata hmem

theorem unevaluatedProperties : t.Builds .whole t.unevaluatedProperties := by
  apply onObject
  intro ms _
  apply bind
  intro known
  apply bind
  intro told
  dsimp only
  split
  · exact done
  · split
    · exact issue (by decide) _
    · exact issue (by decide) _

theorem onPresent {ask : String → Json → Findings} (h : ∀ name asked, t.Builds r (ask name asked)) :
    t.Builds r (t.onPresent ask) := by
  apply onObject
  intro ms _
  apply bind
  intro dependencies
  apply each
  rintro ⟨name, asked⟩ _
  dsimp only
  split
  · exact h name asked
  · exact done

/-- A member that asks for names tells of the whole object. -/
theorem missingNames (property : String) (names : Json) :
    t.Builds .whole (t.missingNames property names) :=
  raises (by decide) (.missingIssues names _)

theorem dependencies : t.Builds .whole t.dependencies := by
  apply onPresent
  intro name asked
  split
  · exact missingNames name _
  · exact here

/-- The same where a single name may stand for a list. -/
theorem dependenciesOrName : t.Builds .whole t.dependenciesOrName := by
  apply onPresent
  intro name asked
  split
  · exact here
  · exact missingNames name _
  · exact missingNames name asked

theorem dependentSchemas : t.Builds .whole t.dependentSchemas :=
  onPresent fun _ _ => here

/-! ### The value itself -/

theorem allOf : t.Builds .whole (Applicator.findings t .allOf) :=
  bind fun _ => each fun _ _ => here

/-- That no schema fits is told of the value itself. -/
theorem noneValid : t.Builds .whole t.noneValid := issue (by decide) _

theorem anyOf : t.Builds .whole t.anyOf := by
  apply bind
  intro schemas
  apply bind
  intro first
  split
  · exact done
  · exact noneValid

theorem oneOf : t.Builds .whole t.oneOf := by
  apply bind
  intro schemas
  apply bind
  intro first
  split
  · exact noneValid
  · apply bind
    intro also
    split
    · exact done
    · exact issue (by decide) _

theorem notValid : t.Builds .whole t.notValid := by
  apply bind
  intro valid
  split
  · exact issue (by decide) _
  · exact done

theorem condition : t.Builds .whole t.condition := by
  apply bind
  intro valid
  dsimp only
  split
  · exact here
  · exact done

/-- A reference hands on the value itself. -/
theorem reference : t.Builds .whole t.reference := by
  unfold Task.reference
  split
  · exact bind fun _ => arrived
  · exact error

theorem recursive : t.Builds .whole t.recursive :=
  bind fun _ => arrived

/-- Schemas that are extended are applied to the value itself. -/
theorem extending : t.Builds .whole t.extending := by
  unfold Task.extending
  split
  · exact here
  · exact bind fun _ => each fun _ _ => here

theorem typeOrSchema : t.Builds .whole t.typeOrSchema := by
  apply bind
  intro types
  apply bind
  intro fine
  split
  · exact done
  · exact issue (by decide) _

theorem disallow : t.Builds .whole t.disallow := by
  apply bind
  intro types
  apply each
  intro type _
  apply bind
  intro valid
  split
  · exact issue (by decide) _
  · exact done

end Task.Builds

/-! ## All keywords -/

/-- The findings of a keyword that applies schemas are put together as to what it hands on. -/
theorem Applicator.builds (t : Task) (a : Applicator) : t.Builds a.reach (a.findings t) := by
  cases a with
  | ref | dynamicRef => exact .reference
  | recursiveRef => exact .recursive
  | allOf => exact .allOf
  | anyOf => exact .anyOf
  | oneOf => exact .oneOf
  | not => exact .notValid
  | ifThenElse => exact .condition
  | properties => exact .properties
  | propertiesWithRequired => exact .propertiesWithRequired
  | patternProperties => exact .patternProperties
  | additionalProperties => exact .additionalProperties
  | propertyNames => exact .propertyNames
  | items => exact .items
  | itemsOfObject => exact .itemsOfObject
  | itemsAfterPrefix => exact .itemsAfterPrefix
  | prefixItems => exact .prefixItems
  | additionalItems => exact .additionalItems
  | contains => exact .contains
  | containsCounted => exact .containsCounted
  | dependencies => exact .dependencies
  | dependenciesOrName => exact .dependenciesOrName
  | dependentSchemas => exact .dependentSchemas
  | unevaluatedItems => exact .unevaluatedItems
  | unevaluatedProperties => exact .unevaluatedProperties
  | «extends» => exact .extending
  | typeOrSchema => exact .typeOrSchema
  | disallow => exact .disallow

/-- The findings of a keyword are put together as to what its name says that it hands on. -/
theorem builds_keywordFindings (t : Task) :
    t.Builds (reachOf t.site.keyword) (keywordFindings t) := by
  unfold keywordFindings
  split
  · exact .done
  · next a hrule =>
    rw [← reach_of_rule? hrule]
    show t.Builds .whole _
    exact .raises (by decide) (.issues _ _ a)
  · next a hrule =>
    rw [← reach_of_rule? hrule]
    exact a.builds t

/-! ## Schemas -/

/-- What a schema finds: the false one its own issue, and any other one what its keywords led to. -/
theorem mem_walk {l : Library} {fuel : Nat} {d : Draft} {s : Scope} {schema data : Json} {i : Issue}
    (h : i ∈ walk l (fuel + 1) d s schema data) :
    (schema = .bool false ∧ i = forbidden data) ∨
      (∀ b, schema ≠ .bool b) ∧ ∃ keyword argument,
        ∃ j ∈ keywordFindings ⟨checkerOf l (walk l fuel), s,
          ⟨keyword, argument, membersOf schema, data⟩⟩, i = j.through keyword := by
  by_cases hschema : ∃ b, schema = .bool b
  · obtain ⟨b, rfl⟩ := hschema
    cases b with
    | true => cases h
    | false =>
      refine .inl ⟨rfl, ?_⟩
      rcases Findings.mem_found.mp h with rfl | h
      · rfl
      · cases h
  · have hne : ∀ b, schema ≠ .bool b := fun b heq => hschema ⟨b, heq⟩
    rw [walk.eq_4 l d s schema data fuel (hne true) (hne false)] at h
    obtain ⟨keywords, -, h⟩ := Findings.mem_ofExcept_bind.mp h
    obtain ⟨⟨keyword, argument⟩, -, h⟩ := Findings.mem_each h
    obtain ⟨j, hj, rfl⟩ := Findings.mem_map.mp h
    exact .inr ⟨hne, keyword, argument, j, hj, rfl⟩

end DocDesk.Schema
