import DocDesk.Proofs.Schema.Collected
import DocDesk.Proofs.Schema.Report

/-!
# Members that must not be there

An issue about additional members is shown with the names that the schema does not list.  A name that is
not listed may still be allowed, by a pattern that occurs in it: the names shown are those that must not be
there exactly if no pattern of the schema occurs in any name that is not listed.

Main statements: `yields_additionalProperties` (what the keyword tells at its place), `settled_of_collect`
and `report_additional`.
-/

namespace DocDesk.Schema

/-! ## Names and patterns of a schema -/

/-- The names that a schema has under a keyword. -/
def namesUnder (schema : List (String × Json)) (keyword : String) : List String :=
  (membersOf ((Json.member? schema keyword).getD (.obj []))).map Prod.fst

/-- A pattern of the schema occurs in the name. -/
def isMatched (schema : List (String × Json)) (name : String) : Bool :=
  (namesUnder schema "patternProperties").any fun pattern =>
    (patternOccurs pattern name).toOption = some true

/-- The names of an object that the schema does not list. -/
def unlisted (schema ms : List (String × Json)) : List String :=
  (ms.map Prod.fst).filter fun name => name ∉ namesUnder schema "properties"

/-- The names of an object that the schema neither lists nor has a pattern for. -/
def offending (schema ms : List (String × Json)) : List String :=
  (unlisted schema ms).filter fun name => !isMatched schema name

/-- Names as the parameter of an issue: a single one by itself, or all of them. -/
def namesParam (names : List String) : Json := oneOrMany (names.map .str)

/-- The parameter tells which names are shown. -/
theorem namesParam_injective : Function.Injective namesParam := by
  have hstr : Function.Injective Json.str := fun _ _ => Json.str.inj
  have hone (name : String) {names : List String} (h : namesParam names = .str name) :
      names = [name] := by
    match names, h with
    | [_], h => rw [Json.str.inj h]
  intro as bs h
  match as, bs with
  | [a], bs => exact (hone a h.symm).symm
  | as, [b] => exact hone b h
  | [], [] => rfl
  | a :: a' :: as, b :: b' :: bs => exact List.map_injective_iff.mpr hstr (Json.arr.inj h)

/-- The names that are not listed are the offending ones exactly if no pattern takes one of them. -/
theorem unlisted_eq_offending_iff {schema ms : List (String × Json)} :
    unlisted schema ms = offending schema ms ↔
      ∀ name ∈ unlisted schema ms, isMatched schema name = false := by
  rw [eq_comm, offending, List.filter_eq_self]
  simp only [Bool.not_eq_true']

/-! ## Issues about additional members -/

/-- Under the keywords for members a schema has objects, whose patterns can be looked for in the names of
an object. -/
structure Settled (schema ms : List (String × Json)) : Prop where
  properties : ∀ v, Json.member? schema "properties" = some v → ∃ ps, v = .obj ps
  patterns : ∀ v, Json.member? schema "patternProperties" = some v →
    ∃ ps, v = .obj ps ∧ ∀ p ∈ ps, ∀ m ∈ ms, ∃ occurs, patternOccurs p.1 m.1 = .ok occurs

/-- An issue about members of an object for which a schema has no place. -/
structure Issue.Additional (listing ms : List (String × Json)) (i : Issue) : Prop where
  data : i.data = .obj ms
  schema : i.schema = .obj listing
  keyword : ("additionalProperties", i.argument) ∈ listing
  forbids : i.argument.isFalsy = true
  settled : Settled listing ms
  some_unlisted : unlisted listing ms ≠ []

/-- An issue that is about additional members if its keyword says so. -/
def Issue.Accounted (i : Issue) : Prop :=
  i.keyword = some "additionalProperties" → ∃ schema ms, i.Additional schema ms

/-- An issue of another keyword is accounted for. -/
theorem Issue.Accounted.of_ne {i : Issue} (h : i.keyword ≠ some "additionalProperties") :
    i.Accounted :=
  fun hkeyword => absurd hkeyword h

/-- So is it when it is moved to a part. -/
theorem Issue.Accounted.under (s : Step) {i : Issue} (h : i.Accounted) : (i.under s).Accounted := by
  intro hkeyword
  obtain ⟨schema, ms, hi⟩ := h hkeyword
  exact ⟨schema, ms, hi.1, hi.2, hi.3, hi.4, hi.5, hi.6⟩

/-- So is it when it goes through a keyword. -/
theorem Issue.Accounted.through (k : String) {i : Issue} (h : i.Accounted) :
    (i.through k).Accounted := by
  intro hkeyword
  obtain ⟨schema, ms, hi⟩ := h hkeyword
  exact ⟨schema, ms, hi.1, hi.2, hi.3, hi.4, hi.5, hi.6⟩

/-- Issues all of which are accounted for. -/
def AllAccounted (is : List Issue) : Prop := ∀ i ∈ is, i.Accounted

/-- Issues in rows are accounted for if each of them is. -/
theorem holdsInRows_allAccounted : HoldsInRows AllAccounted := holdsInRows_forall _

/-- Issues that are moved to a part stay accounted for. -/
theorem AllAccounted.under (s : Step) {is : List Issue} (h : AllAccounted is) :
    AllAccounted (is.map (Issue.under s)) :=
  List.forall_mem_map.mpr fun i hi => (h i hi).under s

/-- No other keyword tells issues under the name of this one. -/
theorem yields_keyword_of_ne {t : Task} (hchecker : t.checker.Yields AllAccounted)
    (hkeyword : t.site.keyword ≠ "additionalProperties") : (keywordFindings t).Yields AllAccounted := by
  have hother : ∀ k ∈ [some t.site.keyword, some "minContains", some "maxContains"],
      k ≠ some "additionalProperties" := by
    simpa using hkeyword
  refine (builds_keywordFindings t).yields holdsInRows_allAccounted (fun s _ his => his.under s)
    (fun is his i hi => ?_) (fun i _ hrequired => ?_) hchecker
  · exact .of_ne (hother _ (his i hi).keyword)
  · refine List.forall_mem_singleton.mpr (.of_ne ?_)
    rw [hrequired]
    decide

/-! ## Keywords for members -/

/-- In every draft `properties` is one of two rules. -/
theorem rule?_properties (d : Draft) :
    d.rule? "properties" = some (.applicator .properties) ∨
      d.rule? "properties" = some (.applicator .propertiesWithRequired) := by
  cases d <;> decide +kernel

/-- In every draft `patternProperties` is one rule. -/
theorem rule?_patternProperties (d : Draft) :
    d.rule? "patternProperties" = some (.applicator .patternProperties) := by
  cases d <;> decide +kernel

/-- In every draft `additionalProperties` is one rule. -/
theorem rule?_additionalProperties (d : Draft) :
    d.rule? "additionalProperties" = some (.applicator .additionalProperties) := by
  cases d <;> decide +kernel

section Members

variable {t : Task} {ms : List (String × Json)} {is : List Issue}

/-- What is found for an object was worked out on its members. -/
theorem exists_of_collect_onObject {check : List (String × Json) → Except Failure Findings}
    (hdata : t.site.data = .obj ms) (h : (t.onObject check).collect = .ok is) :
    ∃ fs, check ms = .ok fs ∧ fs.collect = .ok is := by
  rw [Task.onObject, hdata] at h
  dsimp only at h
  cases hcheck : check ms with
  | error f =>
    rw [hcheck] at h
    cases h
  | ok fs =>
    rw [hcheck] at h
    exact ⟨fs, rfl, h⟩

/-- What has members is an object. -/
theorem exists_of_members_eq_ok {v : Json} {ps : List (String × Json)}
    (h : Shape.members v = .ok ps) : v = .obj ps := by
  cases v with
  | obj _ =>
    cases h
    rfl
  | _ => cases h

/-- The keyword for named members breaks off on anything but an object. -/
theorem exists_obj_of_properties (hkeyword : t.site.keyword = "properties")
    (hdata : t.site.data = .obj ms) (h : (keywordFindings t).collect = .ok is) :
    ∃ ps, t.site.argument = .obj ps := by
  rw [keywordFindings, hkeyword] at h
  rcases rule?_properties t.scope.draft with hrule | hrule
  all_goals
    rw [hrule] at h
    obtain ⟨fs, hfs, -⟩ := exists_of_collect_onObject hdata h
    obtain ⟨ps, hps, -⟩ := exists_of_bind_eq_ok hfs
    exact ⟨ps, exists_of_members_eq_ok hps⟩

/-- The keyword for patterns breaks off on anything but an object of patterns. -/
theorem exists_obj_of_patternProperties (hkeyword : t.site.keyword = "patternProperties")
    (hdata : t.site.data = .obj ms) (h : (keywordFindings t).collect = .ok is) :
    ∃ ps, t.site.argument = .obj ps ∧
      ∀ p ∈ ps, ∀ m ∈ ms, ∃ occurs, patternOccurs p.1 m.1 = .ok occurs := by
  rw [keywordFindings, hkeyword, rule?_patternProperties] at h
  obtain ⟨fs, hfs, hcollect⟩ := exists_of_collect_onObject hdata h
  obtain ⟨ps, hps, hfs⟩ := exists_of_bind_eq_ok hfs
  cases hfs
  refine ⟨ps, exists_of_members_eq_ok hps, fun p hp m hm => ?_⟩
  obtain ⟨js, hjs⟩ := Findings.exists_collect_of_each hcollect p hp
  obtain ⟨ks, hks⟩ := Findings.exists_collect_of_each hjs m hm
  cases hoccurs : patternOccurs p.1 m.1 with
  | error f =>
    simp only [hoccurs] at hks
    cases hks
  | ok occurs => exact ⟨occurs, rfl⟩

/-- An extra name is that of a member, and it is extra. -/
theorem mem_extraNames {schema : List (String × Json)} {patterns : String} {extra : List String}
    (h : Task.extraNames schema patterns ms = .ok extra) {name : String} (hname : name ∈ extra) :
    name ∈ ms.map Prod.fst ∧ Task.isExtra schema patterns name = .ok true := by
  induction ms generalizing extra with
  | nil =>
    cases h
    cases hname
  | cons m ms ih =>
    obtain ⟨found, hfound, h⟩ := exists_of_bind_eq_ok h
    obtain ⟨names, hnames, h⟩ := exists_of_bind_eq_ok h
    cases h
    cases found with
    | false => exact (ih hnames hname).imp_left (List.mem_cons_of_mem _)
    | true =>
      rcases List.mem_cons.mp hname with rfl | hname
      · exact ⟨List.mem_cons_self, hfound⟩
      · exact (ih hnames hname).imp_left (List.mem_cons_of_mem _)

/-- A member without a place in the schema is not listed there. -/
theorem notMem_of_isExtra {schema : List (String × Json)} {patterns name : String}
    (hsettled : Settled schema ms) (h : Task.isExtra schema patterns name = .ok true) :
    name ∉ namesUnder schema "properties" := by
  obtain ⟨known, hknown, h⟩ := exists_of_bind_eq_ok h
  cases known with
  | true => cases h
  | false =>
    rw [namesUnder]
    cases hproperties : Json.member? schema "properties" with
    | none => exact nofun
    | some v =>
      obtain ⟨ps, rfl⟩ := hsettled.properties v hproperties
      rw [hproperties] at hknown
      have hany : ps.any (fun m => decide (m.1 = name)) = false := Except.ok.inj hknown
      intro hmem
      obtain ⟨m, hm, rfl⟩ := List.mem_map.mp hmem
      simpa using List.any_eq_false.mp hany m hm

/-- The issue of this keyword itself, and those of the schema that it hands the other members on to. -/
theorem yields_additionalProperties (hchecker : t.checker.Yields AllAccounted)
    (hkeyword : ("additionalProperties", t.site.argument) ∈ t.site.schema)
    (hsettled : ∀ ms, t.site.data = .obj ms → Settled t.site.schema ms) :
    t.additionalProperties.Yields AllAccounted := by
  unfold Task.additionalProperties Task.onObject
  split
  · next ms hdata =>
    refine .ofExcept fun fs h => ?_
    obtain ⟨patterns, -, h⟩ := exists_of_bind_eq_ok h
    obtain ⟨extra, hextra, h⟩ := exists_of_bind_eq_ok h
    split at h
    · cases h
      exact .each holdsInRows_allAccounted fun _ _ =>
        Task.yields_step (fun s _ his => his.under s) hchecker _ _ _
    · split at h
      · next hforbids =>
        cases h
        obtain ⟨hfalsy, hsome⟩ := Bool.and_eq_true_iff.mp hforbids
        -- what is not allowed for stands in none of the lists, so there is an issue for a member
        -- that the schema leaves out
        obtain ⟨name, hname⟩ : ∃ name, name ∈ extra :=
          List.exists_mem_of_ne_nil extra (by simpa using hsome)
        obtain ⟨hmem, hisExtra⟩ := mem_extraNames hextra hname
        have hunlisted : name ∈ unlisted t.site.schema ms :=
          List.mem_filter.mpr ⟨hmem, by simpa using notMem_of_isExtra (hsettled ms hdata) hisExtra⟩
        exact .ofList (List.forall_mem_singleton.mpr fun _ =>
          ⟨t.site.schema, ms, hdata, rfl, hkeyword, hfalsy, hsettled ms hdata,
            List.ne_nil_of_mem hunlisted⟩)
      · cases h
        exact .done holdsInRows_allAccounted
  · exact .done holdsInRows_allAccounted

end Members

/-! ## Schemas -/

/-- Beside any keyword but a reference all keywords of a schema count. -/
theorem eq_obj_of_applicable {d : Draft} {schema : Json} {keywords : List (String × Json)}
    (h : applicable d schema = .ok keywords) {k : String × Json} (hmem : k ∈ keywords)
    (hk : k.1 ≠ "$ref") : schema = .obj keywords := by
  unfold applicable at h
  split at h
  · split at h
    · cases h
      rfl
    · cases h
      rfl
    · split at h
      · cases h
        exact absurd (congrArg Prod.fst (List.mem_singleton.mp hmem)) hk
      · cases h
        rfl
  · cases h

/-- If all keywords of a schema are told in full for an object, those for members are in order. -/
theorem settled_of_collect {c : Checker} {s : Scope} {schema ms : List (String × Json)}
    (h : ∀ k ∈ schema, ∃ js, (keywordCheck c s schema (.obj ms) k).collect = .ok js) :
    Settled schema ms := by
  have hown : ∀ k ∈ schema, ∃ is,
      (keywordFindings ⟨c, s, ⟨k.1, k.2, schema, .obj ms⟩⟩).collect = .ok is := by
    intro k hk
    obtain ⟨js, hjs⟩ := h k hk
    rw [keywordCheck, Findings.through, Findings.collect_map] at hjs
    obtain ⟨is, his, -⟩ := exists_of_map_eq_ok hjs
    exact ⟨is, his⟩
  constructor
  · intro v hv
    obtain ⟨is, his⟩ := hown _ (Json.mem_of_member? hv)
    exact exists_obj_of_properties rfl rfl his
  · intro v hv
    obtain ⟨is, his⟩ := hown _ (Json.mem_of_member? hv)
    exact exists_obj_of_patternProperties rfl rfl his

/-- Every issue that a schema finds is accounted for. -/
theorem yields_allAccounted_walk (l : Library) (fuel : Nat) (d : Draft) (s : Scope)
    (schema data : Json) : (walk l fuel d s schema data).Yields AllAccounted := by
  refine .walk holdsInRows_allAccounted (fun data => ?_) ?_ l fuel d s schema data
  · exact List.forall_mem_singleton.mpr (.of_ne (i := forbidden data) nofun)
  · rintro c s d schema data keywords hchecker hkeywords hall ⟨keyword, argument⟩ hmem
    have hown : (keywordFindings ⟨c, s, ⟨keyword, argument, membersOf schema, data⟩⟩).Yields
        AllAccounted := by
      by_cases hkeyword : keyword = "additionalProperties"
      · subst hkeyword
        have hobj : schema = .obj keywords :=
          eq_obj_of_applicable hkeywords hmem (show "additionalProperties" ≠ "$ref" by decide)
        subst hobj
        rw [keywordFindings, rule?_additionalProperties]
        refine yields_additionalProperties hchecker hmem fun ms hdata => ?_
        cases hdata
        exact settled_of_collect hall
      · exact yields_keyword_of_ne hchecker hkeyword
    exact hown.map fun is his => List.forall_mem_map.mpr fun i hi => (his i hi).through keyword

/-! ## Reports -/

/-- An entry about additional members shows the names that the schema does not list; these are the ones
that must not be there exactly if none of them is matched by a pattern. -/
structure ShowsUnlisted (listing ms : List (String × Json)) (i : Issue) (e : Entry) : Prop where
  issue : i.Additional listing ms
  params : e.params = ("additionalProperty", namesParam (unlisted listing ms))
  offending_iff : e.params = ("additionalProperty", namesParam (offending listing ms)) ↔
    ∀ name ∈ unlisted listing ms, isMatched listing name = false

/-- A text is the same as one of some names exactly if it is one of them. -/
theorem any_same_str (name : String) (names : List String) :
    (names.map Json.str).any (Json.same (.str name)) = decide (name ∈ names) := by
  induction names with
  | nil => rfl
  | cons n names ih =>
    have hhead : Json.same (.str name) (.str n) = decide (name = n) := rfl
    rw [List.map_cons, List.any_cons, ih, hhead, ← Bool.decide_or]
    simp only [List.mem_cons]

/-- The parameter of an issue of additional members shows the names that are not listed. -/
theorem params_of_additional {schema ms : List (String × Json)} {i : Issue}
    (hkeyword : i.keyword = some "additionalProperties") (h : i.Additional schema ms) :
    i.params = .ok ("additionalProperty", namesParam (unlisted schema ms)) := by
  have hknown : Shape.items ((Json.member? schema "properties").getD (.obj [])) =
      .ok ((namesUnder schema "properties").map .str) := by
    rw [namesUnder]
    cases hproperties : Json.member? schema "properties" with
    | none => rfl
    | some v =>
      obtain ⟨ps, rfl⟩ := h.settled.properties v hproperties
      rw [List.map_map]
      rfl
  have hextra : ((ms.map fun m => Json.str m.1).filter fun n =>
      !((namesUnder schema "properties").map .str).any (Json.same n)) =
        (unlisted schema ms).map .str := by
    have hnames : (ms.map fun m => Json.str m.1) = (ms.map Prod.fst).map .str := by
      rw [List.map_map]
      rfl
    rw [hnames, List.filter_map, unlisted]
    refine congrArg (List.map Json.str) (List.filter_congr fun name _ => ?_)
    rw [Function.comp_apply, any_same_str, decide_not]
  rw [Issue.params, hkeyword, h.data, h.schema]
  simp only [membersOf, hknown, bind, Except.bind]
  rw [hextra]
  rfl

/-- The entry of such an issue shows them. -/
theorem showsUnlisted_of_entry {schema ms : List (String × Json)} {i : Issue} {e : Entry}
    (hkeyword : i.keyword = some "additionalProperties") (h : i.Additional schema ms)
    (hentry : i.entry = .ok e) : ShowsUnlisted schema ms i e := by
  rw [Issue.entry, params_of_additional hkeyword h] at hentry
  have hparams : e.params = ("additionalProperty", namesParam (unlisted schema ms)) :=
    congrArg Entry.params (Except.ok.inj hentry).symm
  refine ⟨h, hparams, ?_⟩
  rw [hparams, Prod.mk.injEq, and_iff_right rfl, namesParam_injective.eq_iff]
  exact unlisted_eq_offending_iff

/-- An entry has the keyword of its issue. -/
theorem keyword_of_entry {i : Issue} {e : Entry} (h : i.entry = .ok e) :
    e.keyword = i.keyword.getD "None" := by
  obtain ⟨params, -, h⟩ := exists_of_bind_eq_ok h
  cases h
  rfl

/-- Every entry of a report that is about additional members belongs to an issue of an object under a
schema that forbids them, and shows the names that this schema does not list. -/
theorem report_additional {schema data : Json} {r : Report} (h : report schema data = .ok r) :
    ∃ found issues, validate schema data = .ok found ∧ found.collect = .ok issues ∧
      List.Forall₂ (fun i e => i.entry = .ok e ∧ (e.keyword = "additionalProperties" →
        ∃ listing ms, ShowsUnlisted listing ms i e)) issues r.entries := by
  obtain ⟨d, issues, hvalidate, hcollect, hentries⟩ := exists_issues_of_report h
  refine ⟨_, issues, hvalidate, hcollect, ?_⟩
  have haccounted : ∀ i ∈ issues, i.Accounted := yields_allAccounted_walk _ _ _ _ _ _ issues hcollect
  clear hcollect
  generalize r.entries = entries at hentries ⊢
  induction hentries with
  | nil => exact .nil
  | @cons i e _ _ hentry _ ih =>
    obtain ⟨hi, hrest⟩ := List.forall_mem_cons.mp haccounted
    refine .cons ⟨hentry, fun hkeyword => ?_⟩ (ih hrest)
    have hown : i.keyword = some "additionalProperties" := by
      rw [keyword_of_entry hentry] at hkeyword
      cases hnone : i.keyword with
      | none =>
        rw [hnone] at hkeyword
        exact absurd hkeyword (by decide)
      | some k =>
        rw [hnone] at hkeyword
        exact congrArg some hkeyword
    obtain ⟨listing, ms, hadditional⟩ := hi hown
    exact ⟨listing, ms, showsUnlisted_of_entry hown hadditional hentry⟩

/-- The names that an entry tells as those of additional members. -/
def Entry.additionalProperty? (e : Entry) : Option (List String) :=
  match e.params with
  | ("additionalProperty", .str name) => some [name]
  | ("additionalProperty", .arr names) => some (names.map Json.plain)
  | _ => none

/-- Members are forbidden both in the document, beside a pattern, and in what is in it. -/
def nestedForbiddingSchema : Json :=
  .obj [("properties", .obj [("p", .obj [("additionalProperties", .bool false)])]),
    ("patternProperties", .obj [("^x-", .bool true)]), ("additionalProperties", .bool false)]

/-- Two names too many in what is in the document, and one in the document itself. -/
def nestedForbiddingDocument : Json :=
  .obj [("q", .null), ("p", .obj [("b", .null), ("a", .null)])]

/-- A member that a pattern takes is shown beside one that nothing takes, in an object within another. -/
theorem report_additional_nested : ∃ r,
    report nestedForbiddingSchema nestedForbiddingDocument = .ok r ∧
    r.entries.map (fun e => (e.pointer, e.additionalProperty?)) =
      [("/p", some ["b", "a"]), ("", some ["q"])] ∧
    ∃ found issues, validate nestedForbiddingSchema nestedForbiddingDocument = .ok found ∧
      found.collect = .ok issues ∧
      List.Forall₂ (fun i e => i.entry = .ok e ∧ (e.keyword = "additionalProperties" →
        ∃ listing ms, ShowsUnlisted listing ms i e)) issues r.entries := by
  have htold : (report nestedForbiddingSchema nestedForbiddingDocument).toOption.map
      (fun r => r.entries.map fun e => (e.pointer, e.additionalProperty?)) =
        some [("/p", some ["b", "a"]), ("", some ["q"])] := by
    decide +kernel
  obtain ⟨r, hr, htold⟩ := Option.map_eq_some_iff.mp htold
  have hreport := eq_ok_of_toOption hr
  exact ⟨r, hreport, htold, report_additional hreport⟩

/-- A name that a pattern allows is told beside the one that must not be there. -/
theorem report_matchedName : ∃ e,
    report (.obj [("properties", .obj [("x", .obj [])]), ("patternProperties", .obj [("^a", .obj [])]),
      ("additionalProperties", .bool false)]) (.obj [("ab", .int 1), ("c", .int 2)]) = .ok ⟨[e]⟩ ∧
    e.message = "'c' does not match any of the regexes: '^a'" ∧
    e.additionalProperty? = some ["ab", "c"] ∧
    offending [("properties", .obj [("x", .obj [])]), ("patternProperties", .obj [("^a", .obj [])]),
      ("additionalProperties", .bool false)] [("ab", .int 1), ("c", .int 2)] = ["c"] := by
  have htold : (report (.obj [("properties", .obj [("x", .obj [])]),
      ("patternProperties", .obj [("^a", .obj [])]), ("additionalProperties", .bool false)])
      (.obj [("ab", .int 1), ("c", .int 2)])).toOption.map
      (fun r => r.entries.map fun e => (e.message, e.additionalProperty?)) =
        some [("'c' does not match any of the regexes: '^a'", some ["ab", "c"])] := by
    decide +kernel
  have hoffending : offending [("properties", .obj [("x", .obj [])]),
      ("patternProperties", .obj [("^a", .obj [])]), ("additionalProperties", .bool false)]
      [("ab", .int 1), ("c", .int 2)] = ["c"] := by
    decide +kernel
  obtain ⟨⟨entries⟩, hreport, htold⟩ := Option.map_eq_some_iff.mp htold
  obtain ⟨e, more, rfl, he, hmore⟩ := List.map_eq_cons_iff.mp htold
  cases List.map_eq_nil_iff.mp hmore
  exact ⟨e, eq_ok_of_toOption hreport, (Prod.mk.inj he).1, (Prod.mk.inj he).2, hoffending⟩

end DocDesk.Schema
