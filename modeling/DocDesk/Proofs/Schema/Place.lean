import DocDesk.Proofs.Number.Digits
import DocDesk.Proofs.Schema.Raised
import DocDesk.Proofs.Schema.Report

/-!
# Where issues point

The pointer of an issue is put together step by step, by every keyword on the way down.  Read as a
pointer into the document it leads to the value that the issue is about, with three exceptions.  An issue
about the name of a member points to the object.  The issue of a false schema for a part points to the
value that the part is in, since a false schema stands for itself.  And the draft 3 keyword for members
puts the name of a missing member in the path of its issue, which is about the object without it.

Main statements: `Pointer.child?_of_part`, `Raised.placed` (what a keyword raises is placed if what it
hands on is) and `report_points`.
-/

namespace DocDesk.Schema

/-! ## Following a pointer -/

namespace Pointer

/-- The part of a value that the text of a step names: the member of that name, or the item whose index
is written so. -/
def child? (token : List Char) : Json → Option Json
  | .obj ms => Json.member? ms (String.ofList token)
  | .arr vs => (vs.zipIdx.find? fun p => natText p.2 = token).map Prod.fst
  | _ => none

/-- The value that the texts of steps lead to. -/
def resolve? : List (List Char) → Json → Option Json
  | [], v => some v
  | token :: tokens, v => (child? token v).bind (resolve? tokens)

/-- The value of a document that a pointer text leads to. -/
def target? (pointer : String) (root : Json) : Option Json := resolve? (read pointer.toList) root

/-- Steps one after the other lead to what the later ones lead to from where the first ones do. -/
theorem resolve?_append (tokens us : List (List Char)) (v : Json) :
    resolve? (tokens ++ us) v = (resolve? tokens v).bind (resolve? us) := by
  induction tokens generalizing v with
  | nil => rfl
  | cons token tokens ih =>
    rw [List.cons_append, resolve?, resolve?, Option.bind_assoc]
    exact congrArg _ (funext fun w => ih w)

/-- The text of steps one after the other. -/
theorem text_append (steps us : List Step) : text (steps ++ us) = text steps ++ text us := by
  rw [text, text, text, List.map_append, chars, List.flatMap_append, String.ofList_append]
  rfl

/-- The text of steps leads where the steps lead. -/
theorem target?_text (steps : List Step) (root : Json) :
    target? (text steps) root = resolve? (steps.map Step.chars) root := by
  rw [target?, text, String.toList_ofList, read_chars]

/-- The text of a step to a part leads to the part. -/
theorem child?_of_part {v w : Json} {s : Step} (hnames : v.DistinctNames) (h : Part v s w) :
    child? s.chars v = some w := by
  cases h with
  | @item vs k _ hget =>
    -- no other index is written as this one
    have hfind : vs.zipIdx.find? (fun p => natText p.2 = natText k) = some (w, k) := by
      obtain ⟨hk, rfl⟩ := List.getElem?_eq_some_iff.mp hget
      refine List.find?_eq_some_iff_getElem.mpr ⟨by simp, k, by simpa using hk, by simp, ?_⟩
      intro j hj
      have hne : natText j ≠ natText k := fun h => absurd (natText_inj h) (by omega)
      simpa using hne
    rw [Step.chars, child?, hfind]
    rfl
  | member hmem =>
    rw [Step.chars, child?, String.ofList_toList]
    exact Json.member?_of_mem hnames.nodup hmem

end Pointer

/-- A part of a document has distinct names if the document has. -/
theorem Part.distinctNames {v w : Json} {s : Step} (hnames : v.DistinctNames) (h : Part v s w) :
    w.DistinctNames := by
  cases h with
  | item hget => exact hnames.items w (List.mem_of_getElem? hget)
  | member hmem => exact hnames.members _ hmem

/-! ## Placed issues -/

namespace Issue

/-- The value of a document that the steps of an issue lead to. -/
def target? (root : Json) (i : Issue) : Option Json := Pointer.resolve? (i.path.map Step.chars) root

/-- An issue that a keyword about names led to. -/
def AboutName (i : Issue) : Prop := nameKeyword ∈ i.trail

/-- An issue that a keyword about parts came to by itself. -/
def AtParts (i : Issue) : Prop := ∃ k ∈ partKeywords, i.trail.getLast? = some k

/-- The issue of a false schema that a keyword has for a part. -/
def OfForbiddenPart (i : Issue) : Prop := i.AtParts ∧ i.keyword = none

/-- The issue of a missing member that a keyword about members tells. -/
def OfMissingMember (i : Issue) : Prop := i.AtParts ∧ i.keyword = some "required"

/-- Where in a document an issue stands, as to the way in which it was found. -/
inductive Placed (root : Json) (i : Issue) : Prop
  | value : ¬i.AboutName → ¬i.OfForbiddenPart → ¬i.OfMissingMember →
      i.target? root = some i.data → Placed root i
  | name {ms : List (String × Json)} {m : String × Json} : i.AboutName →
      i.target? root = some (.obj ms) → m ∈ ms → i.data = .str m.1 → Placed root i
  | part {v : Json} {s : Step} : ¬i.AboutName → i.OfForbiddenPart →
      i.target? root = some v → Part v s i.data → Placed root i
  | missing {steps : List Step} {name : String} {ms : List (String × Json)} : ¬i.AboutName →
      i.OfMissingMember → i.path = steps ++ [.name name] → i.data = .obj ms →
      Json.member? ms name = none → Pointer.resolve? (steps.map Step.chars) root = some i.data →
      Placed root i

section Through

variable {i : Issue} {k : String}

/-- The keyword in front of others is not the last. -/
theorem getLast?_through (h : i.trail ≠ []) : (i.through k).trail.getLast? = i.trail.getLast? := by
  obtain ⟨first, rest, htrail⟩ := List.exists_cons_of_ne_nil h
  rw [through, htrail, List.getLast?_cons_cons]

/-- Going through a keyword, an issue stays one about a name. -/
theorem aboutName_through (hk : k ≠ nameKeyword) : (i.through k).AboutName ↔ i.AboutName := by
  unfold AboutName through
  rw [List.mem_cons, or_iff_right hk.symm]

/-- It stays one of a keyword for parts. -/
theorem atParts_through (h : i.trail ≠ []) : (i.through k).AtParts ↔ i.AtParts := by
  unfold AtParts
  rw [getLast?_through h]

/-- An issue of another keyword is not about a name. -/
theorem not_aboutName_of_nil (hk : k ≠ nameKeyword) (h : i.trail = []) :
    ¬(i.through k).AboutName := by
  rw [aboutName_through hk, AboutName, h]
  exact List.not_mem_nil

/-- An issue without a trail is one of the keyword it goes through. -/
theorem atParts_through_of_nil (h : i.trail = []) : (i.through k).AtParts ↔ k ∈ partKeywords := by
  unfold AtParts through
  rw [h]
  simp

/-- A keyword that does not hand on names leaves an issue from further down where it is. -/
theorem Placed.through {root : Json} (hk : k ≠ nameKeyword) (htrail : i.trail ≠ [])
    (h : i.Placed root) : (i.through k).Placed root := by
  have habout := @aboutName_through i k hk
  have hparts := @atParts_through i k htrail
  cases h with
  | value hname hpart hmissing htarget =>
    refine .value ((not_congr habout).mpr hname) ?_ ?_ htarget
    · exact fun h => hpart ⟨hparts.mp h.1, h.2⟩
    · exact fun h => hmissing ⟨hparts.mp h.1, h.2⟩
  | name hname htarget hmem hdata => exact .name (habout.mpr hname) htarget hmem hdata
  | part hname hpart htarget hmem =>
    exact .part ((not_congr habout).mpr hname) ⟨hparts.mpr hpart.1, hpart.2⟩ htarget hmem
  | missing hname hmissing hpath hdata hlacks htarget =>
    exact .missing ((not_congr habout).mpr hname) ⟨hparts.mpr hmissing.1, hmissing.2⟩ hpath hdata
      hlacks htarget

end Through

/-- An issue of a part is placed in the whole, one step further down. -/
theorem Placed.under {i : Issue} {v w : Json} {s : Step} (hnames : v.DistinctNames)
    (hpart : Part v s w) (h : i.Placed w) : (i.under s).Placed v := by
  have hresolve (steps : List Step) : Pointer.resolve? ((s :: steps).map Step.chars) v
      = Pointer.resolve? (steps.map Step.chars) w := by
    rw [List.map_cons, Pointer.resolve?, Pointer.child?_of_part hnames hpart, Option.bind_some]
  have htarget : (i.under s).target? v = i.target? w := hresolve i.path
  cases h with
  | value hname hforbidden hmissing hvalue =>
    exact .value hname hforbidden hmissing (htarget.trans hvalue)
  | name hname hvalue hmem hdata => exact .name hname (htarget.trans hvalue) hmem hdata
  | part hname hforbidden hvalue hmem => exact .part hname hforbidden (htarget.trans hvalue) hmem
  | @missing steps _ _ hname hmissing hpath hdata hlacks hvalue =>
    refine .missing hname hmissing ?_ hdata hlacks ((hresolve steps).trans hvalue)
    exact congrArg (s :: ·) hpath

/-- A text has no parts, so that an issue of it stands at the text itself. -/
theorem Placed.of_str {i : Issue} {name : String} (h : i.Placed (.str name)) :
    i.path = [] ∧ i.data = .str name := by
  have hroot {steps : List Step} {v : Json}
      (h : Pointer.resolve? (steps.map Step.chars) (.str name) = some v) :
      steps = [] ∧ v = .str name := by
    cases steps with
    | nil => cases h; exact ⟨rfl, rfl⟩
    | cons s steps => cases h
  cases h with
  | value _ _ _ hvalue => exact hroot hvalue
  | name _ hvalue => exact absurd (hroot hvalue).2 nofun
  | part _ _ hvalue hmem =>
    -- there is no constructor for a part of a text
    rw [(hroot hvalue).2] at hmem
    cases hmem
  | missing _ _ _ hdata _ hvalue =>
    rw [hdata] at hvalue
    exact absurd (hroot hvalue).2 nofun

end Issue

/-! ## Placed findings -/

/-- What a schema tells of a value: the false schema that it accepts nothing, and any other one issues
that its keywords led to, at their places. -/
inductive Told (schema data : Json) (i : Issue) : Prop
  | refused : schema = .bool false → i = forbidden data → Told schema data i
  | below : (∀ b, schema ≠ .bool b) → i.trail ≠ [] → i.Placed data → Told schema data i

/-- Whatever a checker checks, the issues that it finds are placed in the value that it checks. -/
structure Checker.Places (c : Checker) : Prop where
  descend {s : Scope} {schema data : Json} : data.DistinctNames →
    ∀ i ∈ c.descend s schema data, Told schema data i
  arrive {s : Scope} {found : Json × Scope} {data : Json} : data.DistinctNames →
    ∀ i ∈ c.arrive s found data, Told found.1 data i

section Keyword

variable {t : Task} {i : Issue} {schema : Json}

/-- A keyword for the whole value is neither one for parts nor for names. -/
theorem not_mem_partKeywords_of_whole {k : String} (h : reachOf k = .whole) :
    k ∉ partKeywords ∧ k ≠ nameKeyword := by
  unfold reachOf at h
  split at h
  · cases h
  · next hparts =>
    split at h
    · cases h
    · next hname => exact ⟨hparts, hname⟩

/-- A keyword for parts is one of those. -/
theorem mem_partKeywords_of_parts {k : String} (h : reachOf k = .parts) :
    k ∈ partKeywords ∧ k ≠ nameKeyword := by
  unfold reachOf at h
  split at h
  · next hparts => exact ⟨hparts, fun hname => absurd (hname ▸ hparts) (by decide)⟩
  · split at h <;> cases h

/-- A keyword for names is the one for names. -/
theorem eq_nameKeyword_of_names {k : String} (h : reachOf k = .names) : k = nameKeyword := by
  unfold reachOf at h
  split at h
  · cases h
  · split at h
    · assumption
    · cases h

/-- An issue of the keyword itself stands at the value. -/
theorem Site.Own.placed {s : Site} (hreach : reachOf s.keyword ≠ .names) (h : s.Own i) :
    (i.through s.keyword).Placed s.data := by
  have hname : s.keyword ≠ nameKeyword := fun heq => hreach (heq ▸ by decide)
  have hparts := @Issue.atParts_through_of_nil i s.keyword h.trail
  refine .value (Issue.not_aboutName_of_nil hname h.trail) ?_ ?_ ?_
  · rintro ⟨-, hnone⟩
    have hkeyword := h.keyword
    rw [show i.keyword = none from hnone] at hkeyword
    simp at hkeyword
  · -- no keyword about parts is named like the one for missing members
    rintro ⟨hat, hrequired⟩
    have hkeyword := h.keyword
    rw [show i.keyword = some "required" from hrequired] at hkeyword
    have heq : "required" = s.keyword := by simpa using hkeyword
    exact absurd (heq ▸ hparts.mp hat : "required" ∈ partKeywords) (by decide)
  · unfold Issue.target? Issue.through
    rw [h.path, h.data]
    rfl

/-- An issue that a schema for the value itself tells. -/
theorem Told.placed_whole {data : Json} {k : String} (hreach : reachOf k = .whole)
    (h : Told schema data i) : (i.through k).Placed data := by
  obtain ⟨hparts, hname⟩ := not_mem_partKeywords_of_whole hreach
  cases h with
  | below _ htrail hplaced => exact hplaced.through hname htrail
  | refused _ hforbidden =>
    subst hforbidden
    have hat := @Issue.atParts_through_of_nil (forbidden data) k rfl
    refine .value (Issue.not_aboutName_of_nil hname rfl) ?_ ?_ rfl
    · exact fun h => hparts (hat.mp h.1)
    · exact fun h => hparts (hat.mp h.1)

/-- An issue that a schema for a part tells: that of a false schema stays where the keyword is. -/
theorem placed_of_mem_step (hchecker : t.checker.Places) (hnames : t.site.data.DistinctNames)
    {k : String} (hreach : reachOf k = .parts) {s : Step} {v : Json} (hpart : Part t.site.data s v)
    (h : i ∈ t.step s schema v) : (i.through k).Placed t.site.data := by
  obtain ⟨hkeyword, hname⟩ := mem_partKeywords_of_parts hreach
  have hv := hpart.distinctNames hnames
  unfold Task.step at h
  split at h
  · next b =>
    -- such a schema is answered before the step is put in front
    cases hchecker.descend hv i h with
    | below hschema => exact absurd rfl (hschema b)
    | refused _ hforbidden =>
      subst hforbidden
      have hat := (@Issue.atParts_through_of_nil (forbidden v) k rfl).mpr hkeyword
      exact .part (Issue.not_aboutName_of_nil hname rfl) ⟨hat, rfl⟩ rfl hpart
  · next hschema =>
    obtain ⟨j, hj, rfl⟩ := Findings.mem_map.mp h
    cases hchecker.descend hv j hj with
    | refused hfalse => exact absurd hfalse (hschema false)
    | below _ htrail hplaced =>
      exact Issue.Placed.through hname htrail (hplaced.under hnames hpart)

/-- An issue that a schema for the name of a member tells has no steps, and the name as its value. -/
theorem placed_of_mem_name (hchecker : t.checker.Places) {ms : List (String × Json)}
    {m : String × Json} (hdata : t.site.data = .obj ms) (hmem : m ∈ ms)
    (h : i ∈ t.checker.descend t.scope schema (.str m.1)) :
    (i.through nameKeyword).Placed t.site.data := by
  obtain ⟨hpath, hvalue⟩ : i.path = [] ∧ i.data = .str m.1 := by
    have hstr : Json.DistinctNames (.str m.1) := .scalar rfl trivial
    cases hchecker.descend hstr i h with
    | refused _ hforbidden => rw [hforbidden]; exact ⟨rfl, rfl⟩
    | below _ _ hplaced => exact hplaced.of_str
  have htarget : (i.through nameKeyword).target? t.site.data = some (.obj ms) := by
    unfold Issue.target? Issue.through
    rw [hpath, hdata]
    rfl
  exact .name List.mem_cons_self htarget hmem hvalue

/-- What a keyword raises is placed if what it hands on to other schemas is. -/
theorem Raised.placed (hchecker : t.checker.Places) (hnames : t.site.data.DistinctNames)
    (h : Raised t i (reachOf t.site.keyword)) : (i.through t.site.keyword).Placed t.site.data := by
  generalize hreach : reachOf t.site.keyword = r at h
  cases h with
  | own hr hown => exact hown.placed (hreach ▸ hr)
  | here hi => exact (hchecker.descend hnames i hi).placed_whole hreach
  | arrived hi => exact (hchecker.arrive hnames i hi).placed_whole hreach
  | part hpart hi => exact placed_of_mem_step hchecker hnames hreach hpart hi
  | @missing _ name hdata hlacks hpath htrail hrequired hvalue =>
    obtain ⟨hkeyword, hname⟩ := mem_partKeywords_of_parts hreach
    have hsteps : (i.through t.site.keyword).path = [] ++ [.name name] := hpath
    have hat := (Issue.atParts_through_of_nil htrail).mpr hkeyword
    refine .missing (Issue.not_aboutName_of_nil hname htrail) ⟨hat, hrequired⟩ hsteps
      (hvalue.trans hdata) hlacks ?_
    exact congrArg some hvalue.symm
  | name hdata hmem hi =>
    rw [eq_nameKeyword_of_names hreach]
    exact placed_of_mem_name hchecker hdata hmem hi

end Keyword

/-! ## Runs -/

section Runs

variable {l : Library} {i : Issue}

/-- If a way to check tells issues at their places, then so do the ways to check below a keyword. -/
theorem places_checkerOf {w : Draft → Scope → Json → Json → Findings}
    (hw : ∀ d s schema data, data.DistinctNames → ∀ i ∈ w d s schema data, Told schema data i) :
    (checkerOf l w).Places where
  descend hnames i hi := by
    obtain ⟨d, -, hi⟩ := Findings.mem_ofExcept_bind.mp hi
    exact hw _ _ _ _ hnames i hi
  arrive hnames i hi := by
    obtain ⟨d, -, hi⟩ := Findings.mem_ofExcept_bind.mp hi
    exact hw _ _ _ _ hnames i hi

/-- Whatever is found in a value is placed in it. -/
theorem told_of_mem_walk (fuel : Nat) (d : Draft) (s : Scope) (schema data : Json)
    (hnames : data.DistinctNames) : ∀ i ∈ walk l fuel d s schema data, Told schema data i := by
  -- on the nesting of schemas: what a keyword hands on is checked with less of it
  induction fuel generalizing d s schema data with
  | zero =>
    intro i hi
    cases hi
  | succ fuel ih =>
    intro i hi
    rcases mem_walk hi with ⟨hfalse, hforbidden⟩ | ⟨hne, keyword, argument, j, hj, rfl⟩
    · exact .refused hfalse hforbidden
    · -- the keyword itself is the first of the trail
      refine .below hne (List.cons_ne_nil _ _) ?_
      exact Raised.placed (places_checkerOf ih) hnames ((builds_keywordFindings _).raised hj)

/-- Whatever is found is placed. -/
theorem placed_of_mem_findings {r : Resource} {data : Json} (hnames : data.DistinctNames)
    (h : i ∈ findings r data) : i.Placed data := by
  cases told_of_mem_walk nestingLimit _ _ _ _ hnames i h with
  | below _ _ hplaced => exact hplaced
  | refused _ hforbidden =>
    subst hforbidden
    refine .value ?_ ?_ ?_ rfl
    · exact List.not_mem_nil
    · rintro ⟨⟨k, -, hlast⟩, -⟩
      cases hlast
    · rintro ⟨⟨k, -, hlast⟩, -⟩
      cases hlast

end Runs

/-! ## Entries -/

/-- Where the pointer of an entry leads in a document, as to the way in which its issue was found. -/
structure Points (root : Json) (i : Issue) (e : Entry) : Prop where
  entry : i.entry = .ok e
  value : ¬i.AboutName → ¬i.OfForbiddenPart → ¬i.OfMissingMember →
    Pointer.target? e.pointer root = some e.data
  name : i.AboutName →
    ∃ ms, Pointer.target? e.pointer root = some (.obj ms) ∧ ∃ m ∈ ms, e.data = .str m.1
  part : ¬i.AboutName → i.OfForbiddenPart →
    ∃ v s, Pointer.target? e.pointer root = some v ∧ Part v s e.data
  missing : ¬i.AboutName → i.OfMissingMember →
    ∃ pointer name ms, e.pointer = pointer ++ Pointer.text [.name name] ∧ e.data = .obj ms ∧
      Json.member? ms name = none ∧ Pointer.target? pointer root = some e.data ∧
      Pointer.target? e.pointer root = none

/-- The entry of a placed issue points to its place. -/
theorem Issue.Placed.points {root : Json} {i : Issue} {e : Entry} (h : i.Placed root)
    (hentry : i.entry = .ok e) : Points root i e := by
  obtain ⟨hpointer, hdata⟩ := pointer_of_entry hentry
  have htarget : Pointer.target? e.pointer root = i.target? root := by
    rw [hpointer, Pointer.target?_text, Issue.target?]
  cases h with
  | value hname hpart hmissing hvalue =>
    exact {
      entry := hentry
      value := fun _ _ _ => hdata ▸ htarget.trans hvalue
      name := fun h => absurd h hname
      part := fun _ h => absurd h hpart
      missing := fun _ h => absurd h hmissing }
  | name hname hvalue hmem hstr =>
    exact {
      entry := hentry
      value := fun h => absurd hname h
      name := fun _ => ⟨_, htarget.trans hvalue, _, hmem, hdata.trans hstr⟩
      part := fun h => absurd hname h
      missing := fun h => absurd hname h }
  | part hname hpart hvalue hmem =>
    exact {
      entry := hentry
      value := fun _ h => absurd hpart h
      name := fun h => absurd h hname
      part := fun _ _ => ⟨_, _, htarget.trans hvalue, hdata ▸ hmem⟩
      missing := fun _ h => absurd (hpart.2.symm.trans h.2) nofun }
  | @missing steps name ms hname hmissing hpath hobj hlacks hvalue =>
    have hback : e.pointer = Pointer.text steps ++ Pointer.text [.name name] := by
      rw [hpointer, hpath, Pointer.text_append]
    have hobject : Pointer.target? (Pointer.text steps) root = some e.data := by
      rw [Pointer.target?_text, hvalue, hdata]
    have hnone : Pointer.target? e.pointer root = none := by
      rw [htarget, Issue.target?, hpath, List.map_append, Pointer.resolve?_append, hvalue, hobj]
      simp [Pointer.resolve?, Pointer.child?, Step.chars, hlacks]
    exact {
      entry := hentry
      value := fun _ _ h => absurd hmissing h
      name := fun h => absurd h hname
      part := fun _ h => absurd (h.2.symm.trans hmissing.2) nofun
      missing := fun _ _ => ⟨_, name, ms, hback, hdata.trans hobj, hlacks, hobject, hnone⟩ }

/-- In a report on a document with distinct names every entry is that of an issue that was found, and its
pointer leads to the value that it shows; to the object, if the issue is about the name of a member; to
the value that holds it, if a keyword for parts has a false schema for it; and nowhere, if a keyword for
members misses one: without its last step, the name that is missing, it leads to the object. -/
theorem report_points {schema data : Json} {r : Report} (hnames : data.DistinctNames)
    (h : report schema data = .ok r) :
    ∃ found issues, validate schema data = .ok found ∧ found.collect = .ok issues ∧
      List.Forall₂ (Points data) issues r.entries := by
  obtain ⟨d, issues, hvalidate, hcollect, hissues⟩ := exists_issues_of_report h
  refine ⟨_, issues, hvalidate, hcollect, ?_⟩
  have hplaced : ∀ i ∈ issues, i.Placed data := by
    intro i hi
    exact placed_of_mem_findings hnames ((Findings.mem_of_collect hcollect).mp hi)
  refine ((List.forall₂_and_left _ _).mpr ⟨hplaced, hissues⟩).imp ?_
  intro i e hpair
  exact hpair.1.points hpair.2

/-- Items with their own schemas, of which one is false, under a name with a slash, and short names. -/
def slashSchema : Json :=
  .obj [("properties", .obj [("a/b", .obj [("items", .arr [.obj [("type", .str "string")],
      .bool false])])]), ("propertyNames", .obj [("maxLength", .int 3)])]

/-- An item of the wrong type, a forbidden item and a long name. -/
def slashDocument : Json := .obj [("a/b", .arr [.int 1, .null]), ("1~0~", .arr [])]

/-- Names with slashes, a false schema and the name of a member. -/
theorem report_points_slash : slashDocument.DistinctNames ∧
    ∃ r, report slashSchema slashDocument = .ok r ∧
      r.rows = [["/a~1b/0", "type", "1 is not of type 'string'"],
        ["/a~1b", "None", "False schema does not allow None"],
        ["root", "maxLength", "'1~0~' is too long"]] ∧
      ∃ found issues, validate slashSchema slashDocument = .ok found ∧
        found.collect = .ok issues ∧ List.Forall₂ (Points slashDocument) issues r.entries := by
  have hnames : slashDocument.DistinctNames := by decide
  have hrows : (report slashSchema slashDocument).toOption.map Report.rows
      = some [["/a~1b/0", "type", "1 is not of type 'string'"],
        ["/a~1b", "None", "False schema does not allow None"],
        ["root", "maxLength", "'1~0~' is too long"]] := by
    decide +kernel
  obtain ⟨r, hr, hrows⟩ := Option.map_eq_some_iff.mp hrows
  have hreport := eq_ok_of_toOption hr
  exact ⟨hnames, r, hreport, hrows, report_points hnames hreport⟩

/-- The issue of a forbidden item points to the array and shows the item. -/
theorem report_forbiddenItem : ∃ e,
    report (.obj [("items", .bool false)]) (.arr [.int 1]) = .ok ⟨[e]⟩ ∧ e.data = .int 1 ∧
      Pointer.target? e.pointer (.arr [.int 1]) = some (.arr [.int 1]) :=
  ⟨⟨"", "False schema does not allow 1", "None", ("None", .null), .int 1⟩, rfl, rfl, rfl⟩

end DocDesk.Schema
