import DocDesk.Proofs.Json.Equality
import DocDesk.Proofs.Schema.Scope
import DocDesk.Proofs.Schema.Upheld

/-!
# Schemas that refer to each other

Schemas that refer to each other without end still come to an end on every value, if every way back to a
place passes through a part of the value.  An atlas lists the places that references lead to, each with
the number of checks that may nest there before a part is gone on to.  Whether the numbers are right can
be seen by going through every place once, as far as the next references.

Main statements: `Atlas.upheld` (what the atlas lists is an upheld family of surveys) and
`Atlas.complete_findings`.
-/

namespace DocDesk.Schema

/-- A place that references lead to: a resource, where in it, and how many checks may nest there. -/
structure Landmark where
  uri : String
  fragment : List Char
  rank : Nat

/-- The schemas of a draft by their names, the places that references between them lead to, and whether
recursive and dynamic references stand among them, which lead to the root. -/
structure Atlas where
  draft : Draft
  root : String
  documents : List (String × Json)
  landmarks : List Landmark
  isRecursive : Bool
  isDynamic : Bool

namespace Atlas

/-- The number of checks that may nest between a value and its parts. -/
def span : Nat := 5

variable (a : Atlas)

/-! ## What can be seen of a schema -/

/-- A schema that names no other draft. -/
def staysIn (schema : Json) : Bool := (draftOf schema a.draft).toOption = some a.draft

/-- A schema that names no base either. -/
def isPlain (schema : Json) : Bool :=
  a.staysIn schema && (Resource.mk a.draft schema).name?.isNone

/-- A place is listed, with at most so many checks. -/
def lists (budget : Nat) (address : String × List Char) : Bool :=
  a.landmarks.any fun m => m.uri = address.1 && m.fragment = address.2 && m.rank ≤ budget

/-- The dynamic reference to the root. -/
def rootReference : String := "#meta"

/-- What the keywords of a schema may count on: that a schema below can be gone through within what is
left of the checks that may nest, and that a place is listed within it.  A part of the value starts with
the full number again. -/
def ground (within : Nat → Json → Bool) (base : String) (budget : Nat) : Ground where
  here schema := a.isPlain schema && within budget schema
  valid _ := false
  part schema := a.isPlain schema && within (budget + span) schema
  validPart _ := false
  name schema := a.isPlain schema && within (budget + span) schema
  reference r := a.lists budget (Scope.address ⟨a.draft, base, []⟩ r) ||
    a.isDynamic && r = rootReference && a.lists budget (a.root, [])
  recursive _ := a.isRecursive && a.lists budget (a.root, [])
  evaluatedItems _ := false
  evaluatedMembers _ := false

/-- The texts of a schema are asked to be told. -/
def known : Known := ⟨true, false⟩

/-- A schema at a base can be gone through, down to the references, within a number of checks. -/
def covers (base : String) : Nat → Nat → Json → Bool
  | _ + 1, _ + 1, .bool _ => true
  | depth + 1, budget + 1, schema =>
    match applicable a.draft schema with
    | .ok ms => ms.all fun m => (a.draft.rule? m.1).all fun r =>
        r.fits a.draft known (a.ground (covers base depth) base budget) (membersOf schema) m.2
    | .error _ => false
  | _, _, _ => false

/-- The schema at a place. -/
def contents? (m : Landmark) : Option Json :=
  (a.documents.lookup m.uri).bind fun root =>
    match m.fragment with
    | [] => some root
    | '/' :: pointer =>
      let nowhere : Failure := .reference (.nowhere (String.ofList ('/' :: pointer)) root) true
      match Scope.follow a.draft nowhere (Text.splitAt '/' (Uri.unescaped pointer)) [] root
          ⟨a.draft, m.uri, []⟩ with
      | .ok (schema, s) => if s.base = m.uri then some schema else none
      | .error _ => none
    | _ => none

/-- The depth to which every place is gone through. -/
def depth : Nat := 12

/-- Every place can be gone through within the number of checks that it is listed with. -/
def isSound : Bool :=
  a.landmarks.all fun m => (a.contents? m).any fun schema =>
    a.staysIn schema && a.covers m.uri depth m.rank schema

/-- The names of the schemas. -/
abbrev names : List String := a.documents.map Prod.fst

/-- A library knows the schemas of an atlas by their names, and where there are recursive or dynamic
references among them, these lead to the root. -/
structure Charted (l : Library) : Prop where
  named : "" ∉ a.names
  resources : ∀ p ∈ a.documents, l.resource? p.1 = .ok (some ⟨a.draft, p.2⟩)
  sound : a.isSound = true
  opens : a.isRecursive = true → ∀ p ∈ a.documents, Scope.isRecursiveAnchor p.2 = true ∧
    ∀ b ∈ a.names, Scope.address ⟨a.draft, b, []⟩ p.1 = (p.1, [])
  anchors : a.isDynamic = true → ∀ p ∈ a.documents,
    l.anchor? p.1 "meta" = .ok (some ⟨⟨a.draft, p.2⟩, true⟩)
  rootName : a.isDynamic = true → ∀ p ∈ a.documents, p.1 = a.root →
    (Resource.mk a.draft p.2).name? = some a.root ∧ ∀ b ∈ a.names, joinNames b a.root = a.root

/-! ## The family of surveys -/

/-- What is listed: schemas at scopes below the root that can be gone through with the checks that are
left once every level of the value has taken its share. -/
structure Lists (fuel n : Nat) (d : Draft) (s : Scope) (schema : Json) : Prop where
  draft : d = a.draft
  rooted : s.Rooted a.draft a.names a.root
  covered : ∃ depth budget, span * n + budget ≤ fuel ∧ a.covers s.base depth budget schema = true

open Classical in
/-- The surveys of what is listed. -/
noncomputable def survey (fuel : Nat) : Survey := fun n d s schema =>
  decide (a.Lists fuel n d s schema)

variable {a} {l : Library} {s : Scope} {fuel n : Nat} {schema : Json}

open Classical in
/-- What is listed can be looked up. -/
theorem survey_eq_true {d : Draft} : a.survey fuel n d s schema = true ↔ a.Lists fuel n d s schema := by
  rw [survey, decide_eq_true_eq]

/-- Nothing can be gone through without a check. -/
theorem exists_of_covers {base : String} {depth budget : Nat}
    (h : a.covers base depth budget schema = true) :
    ∃ below left, depth = below + 1 ∧ budget = left + 1 := by
  unfold covers at h
  split at h
  · exact ⟨_, _, rfl, rfl⟩
  · exact ⟨_, _, rfl, rfl⟩
  · cases h

/-- The draft that is in force at a schema that names no other. -/
theorem draftOf_of_staysIn (h : a.staysIn schema = true) : draftOf schema a.draft = .ok a.draft :=
  eq_ok_of_toOption (of_decide_eq_true h)

/-- A scope with the draft that it has anyway. -/
theorem with_draft (hs : s.draft = a.draft) : { s with draft := a.draft } = s := by
  rw [← hs]

/-- Going down into a schema that can be gone through is listed. -/
theorem descends_of_covers (hs : s.Rooted a.draft a.names a.root) (hplain : a.isPlain schema = true)
    {depth budget : Nat} (hfuel : span * n + budget ≤ fuel)
    (hcovers : a.covers s.base depth budget schema = true) :
    (a.survey fuel).descends n s schema = true := by
  obtain ⟨hstays, hname⟩ := Bool.and_eq_true_iff.mp hplain
  have hnone : (Resource.mk a.draft schema).name? = none := Option.isNone_iff_eq_none.mp hname
  have henter : s.enter ⟨a.draft, schema⟩ = s := by
    unfold Scope.enter
    rw [hnone]
  unfold Survey.descends
  rw [hs.draft, draftOf_of_staysIn hstays]
  dsimp only
  rw [henter, with_draft hs.draft]
  exact survey_eq_true.mpr ⟨rfl, hs, depth, budget, hfuel, hcovers⟩

/-- Arriving at a place that is listed is listed. -/
theorem arrives_of_landmark (hsound : a.isSound = true) (hs : s.draft = a.draft) {m : Landmark}
    (hm : m ∈ a.landmarks) (hcontents : a.contents? m = some schema) {there : Scope}
    (hthere : there.Rooted a.draft a.names a.root) (hbase : there.base = m.uri)
    (hfuel : span * n + m.rank ≤ fuel) :
    (a.survey fuel).arrives n s (schema, there) = true := by
  have hlisted := List.all_eq_true.mp hsound m hm
  rw [hcontents, Option.any_some] at hlisted
  obtain ⟨hstays, hcovers⟩ := Bool.and_eq_true_iff.mp hlisted
  unfold Survey.arrives
  rw [hs, draftOf_of_staysIn hstays]
  dsimp only
  rw [with_draft hthere.draft]
  exact survey_eq_true.mpr ⟨rfl, hthere, _, _, hfuel, hbase ▸ hcovers⟩

/-! ## References -/

/-- A reference to a place leads to the schema there. -/
theorem Charted.exists_lookup (h : a.Charted l) (hs : s.Rooted a.draft a.names a.root) {m : Landmark}
    (hcontents : a.contents? m = some schema) {r : String} (haddress : s.address r = (m.uri, m.fragment)) :
    ∃ there, s.lookup l r true = .ok (schema, there) ∧ there.Rooted a.draft a.names a.root ∧
      there.base = m.uri := by
  obtain ⟨root, hroot, hcontents⟩ := Option.bind_eq_some_iff.mp hcontents
  obtain ⟨front, behind, hsplit, -⟩ := List.lookup_eq_some_iff.mp hroot
  have hmem : (m.uri, root) ∈ a.documents := by
    rw [hsplit]
    exact List.mem_append_right front List.mem_cons_self
  have hresource := h.resources _ hmem
  have hleft := hs.leave h.named (List.mem_map_of_mem hmem)
  split at hcontents
  · next hfragment =>
    cases hcontents
    rw [hfragment] at haddress
    exact ⟨_, Scope.lookup_whole haddress hresource, hleft, rfl⟩
  · next pointer hfragment =>
    rw [hfragment] at haddress
    dsimp only at hcontents
    split at hcontents
    · next found there hfollow =>
      split at hcontents
      · next hbase =>
        cases hcontents
        rw [Scope.lookup_pointer haddress hresource]
        have houter := Scope.follow_outer hfollow (s.leave m.uri).outer
        have hstart : s.leave m.uri = ⟨a.draft, m.uri, (s.leave m.uri).outer⟩ := by
          rw [← hs.draft]
          rfl
        rw [hstart]
        refine ⟨_, houter, ?_, hbase⟩
        exact {
          draft := Scope.draft_of_follow hfollow
          base := hbase ▸ hleft.base
          outer := hleft.outer
          first := by rw [hs.getLast?_outer_leave h.named, Option.getD_some] }
      · cases hcontents
    · cases hcontents
  · cases hcontents

/-- A place that is listed has a schema. -/
theorem exists_landmark (hsound : a.isSound = true) {budget : Nat} {address : String × List Char}
    (h : a.lists budget address = true) : ∃ m ∈ a.landmarks, (m.uri, m.fragment) = address ∧
      m.rank ≤ budget ∧ ∃ schema, a.contents? m = some schema := by
  obtain ⟨m, hm, hlisted⟩ := List.any_eq_true.mp h
  simp only [Bool.and_eq_true, decide_eq_true_eq] at hlisted
  obtain ⟨⟨huri, hfragment⟩, hrank⟩ := hlisted
  obtain ⟨schema, hcontents, -⟩ := (Option.any_eq_true _ _).mp (List.all_eq_true.mp hsound m hm)
  exact ⟨m, hm, Prod.ext huri hfragment, hrank, schema, hcontents⟩

/-- The schema at the root is the one that is found there. -/
theorem Charted.contents_root (h : a.Charted l) {m : Landmark} (hroot : (m.uri, m.fragment) = (a.root, []))
    {contents : Json} (hcontents : a.contents? m = some schema)
    (hmem : (a.root, contents) ∈ a.documents) : schema = contents := by
  obtain ⟨huri, hfragment⟩ := Prod.mk.inj hroot
  obtain ⟨found, hfound, hcontents⟩ := Option.bind_eq_some_iff.mp hcontents
  obtain ⟨front, behind, hsplit, -⟩ := List.lookup_eq_some_iff.mp hfound
  have hother : (m.uri, found) ∈ a.documents := by
    rw [hsplit]
    exact List.mem_append_right front List.mem_cons_self
  have hresource := h.resources _ hother
  rw [huri, h.resources _ hmem] at hresource
  rw [hfragment] at hcontents
  cases hcontents
  cases hresource
  rfl

/-- Arriving at the root is listed if the root is. -/
theorem Charted.arrives_root (h : a.Charted l) (hs : s.draft = a.draft) {budget : Nat}
    (hlists : a.lists budget (a.root, []) = true) (hfuel : span * n + budget ≤ fuel) {contents : Json}
    (hmem : (a.root, contents) ∈ a.documents) {there : Scope}
    (hthere : there.Rooted a.draft a.names a.root) (hbase : there.base = a.root) :
    (a.survey fuel).arrives n s (contents, there) = true := by
  obtain ⟨m, hm, haddress, hrank, schema, hcontents⟩ := exists_landmark h.sound hlists
  have hsame := h.contents_root haddress hcontents hmem
  subst hsame
  have huri : there.base = m.uri := hbase.trans (Prod.mk.inj haddress).1.symm
  exact arrives_of_landmark h.sound hs hm hcontents hthere huri (by omega)

/-- A reference to a landmark leads to what is listed. -/
theorem Charted.arrives_reference (h : a.Charted l) (hs : s.Rooted a.draft a.names a.root) {r : String}
    {budget : Nat} (hlists : a.lists budget (s.address r) = true) (hfuel : span * n + budget ≤ fuel) :
    ∃ found, s.lookup l r true = .ok found ∧ (a.survey fuel).arrives n s found = true := by
  obtain ⟨m, hm, haddress, hrank, schema, hcontents⟩ := exists_landmark h.sound hlists
  obtain ⟨there, hlookup, hthere, hbase⟩ := h.exists_lookup hs hcontents haddress.symm
  exact ⟨_, hlookup, arrives_of_landmark h.sound hs.draft hm hcontents hthere hbase (by omega)⟩

/-- A dynamic reference leads to the root, wherever it stands. -/
theorem Charted.arrives_dynamic (h : a.Charted l) (hs : s.Rooted a.draft a.names a.root)
    (hdynamic : a.isDynamic = true) {budget : Nat} (hlists : a.lists budget (a.root, []) = true)
    (hfuel : span * n + budget ≤ fuel) :
    ∃ found, s.lookup l rootReference true = .ok found ∧ (a.survey fuel).arrives n s found = true := by
  have haddress : s.address rootReference = (s.base, ['m', 'e', 't', 'a']) := by
    unfold Scope.address
    rw [if_pos (by decide)]
    rfl
  obtain ⟨contents, hmem, hlookup⟩ := hs.exists_lookup_dynamic h.named h.resources haddress
    (by decide) (h.anchors hdynamic)
  obtain ⟨hownname, hjoined⟩ := h.rootName hdynamic _ hmem rfl
  have hleft := hs.leave h.named hs.base
  have henter : (s.leave s.base).enter ⟨a.draft, contents⟩ = { s.leave s.base with base := a.root } := by
    unfold Scope.enter
    rw [hownname]
    dsimp only
    rw [hjoined _ hleft.base]
  rw [henter] at hlookup
  refine ⟨_, hlookup, h.arrives_root hs.draft hlists hfuel hmem ?_ rfl⟩
  exact {
    draft := hleft.draft
    base := List.mem_map_of_mem hmem
    outer := hleft.outer
    first := by rw [hs.getLast?_outer_leave h.named, Option.getD_some] }

/-- A recursive reference leads to the root, wherever it stands. -/
theorem Charted.arrives_recursive (h : a.Charted l) (hs : s.Rooted a.draft a.names a.root)
    (hrecursive : a.isRecursive = true) {budget : Nat} (hlists : a.lists budget (a.root, []) = true)
    (hfuel : span * n + budget ≤ fuel) :
    ∃ found, s.lookupRecursive l false = .ok found ∧ (a.survey fuel).arrives n s found = true := by
  have haddress (p : String × Json) (hp : p ∈ a.documents) : s.address p.1 = (p.1, []) :=
    (h.opens hrecursive p hp).2 s.base hs.base
  obtain ⟨contents, hmem, hlookup⟩ := hs.exists_lookupRecursive h.resources
    (fun p hp => (h.opens hrecursive p hp).1) haddress
  have hthere := hs.leave h.named (List.mem_map_of_mem hmem)
  exact ⟨_, hlookup, h.arrives_root hs.draft hlists hfuel hmem hthere rfl⟩

/-! ## Upheld -/

/-- What the keywords of a schema may count on is listed with one check less. -/
theorem Charted.backs (h : a.Charted l) (hs : s.Rooted a.draft a.names a.root) {depth budget : Nat}
    (hfuel : span * n + budget ≤ fuel) (ms : List (String × Json)) :
    (a.survey fuel).Backs l n s ms (a.ground (a.covers s.base depth) s.base budget) where
  here hschema := by
    obtain ⟨hplain, hcovers⟩ := Bool.and_eq_true_iff.mp hschema
    exact descends_of_covers hs hplain hfuel hcovers
  valid := nofun
  part hschema := by
    obtain ⟨hplain, hcovers⟩ := Bool.and_eq_true_iff.mp hschema
    unfold Survey.descendsWithPart
    rw [Bool.or_eq_true, decide_eq_true_eq]
    by_cases hn : n = 0
    · exact .inl hn
    · unfold span at hfuel hcovers
      exact .inr (descends_of_covers hs hplain (by unfold span; omega) hcovers)
  validPart := nofun
  name hschema hn := by
    obtain ⟨hplain, hcovers⟩ := Bool.and_eq_true_iff.mp hschema
    unfold span at hfuel hcovers
    exact descends_of_covers hs hplain (by unfold span; omega) hcovers
  reference {r} hr := by
    rcases Bool.or_eq_true_iff.mp hr with hlists | hroot
    · exact h.arrives_reference hs hlists hfuel
    · obtain ⟨hboth, hlists⟩ := Bool.and_eq_true_iff.mp hroot
      obtain ⟨hdynamic, hname⟩ := Bool.and_eq_true_iff.mp hboth
      have hname : r = rootReference := of_decide_eq_true hname
      subst hname
      exact h.arrives_dynamic hs hdynamic hlists hfuel
  recursive hr := by
    obtain ⟨hrecursive, hlists⟩ := Bool.and_eq_true_iff.mp hr
    exact h.arrives_recursive hs hrecursive hlists hfuel
  evaluatedItems := nofun
  evaluatedMembers := nofun

/-- What an atlas lists is upheld. -/
theorem Charted.upheld (h : a.Charted l) : Upheld l known a.survey where
  zero {n d s schema} := by
    refine Bool.eq_false_iff.mpr fun hlisted => ?_
    obtain ⟨-, -, depth, budget, hfuel, hcovers⟩ := survey_eq_true.mp hlisted
    obtain ⟨below, left, -, rfl⟩ := exists_of_covers hcovers
    omega
  step {fuel n d s schema} hlisted := by
    obtain ⟨rfl, hs, depth, budget, hfuel, hcovers⟩ := survey_eq_true.mp hlisted
    obtain ⟨below, left, rfl, rfl⟩ := exists_of_covers hcovers
    by_cases hbool : ∃ b, schema = .bool b
    · obtain ⟨b, rfl⟩ := hbool
      exact .bool b
    · rw [covers.eq_2 _ _ _ _ _ fun b heq => hbool ⟨b, heq⟩] at hcovers
      split at hcovers
      · next ms happlicable =>
        have hbacks := @Charted.backs a l s fuel n h hs below left (by omega) (membersOf schema)
        refine .keywords happlicable hbacks fun m hm r hr => ?_
        have hall := List.all_eq_true.mp hcovers m hm
        rw [← hs.draft, hr] at hall
        rw [hs.draft] at hall ⊢
        exact hall
      · cases hcovers

/-- Under the root of an atlas the check of every value ends whose nesting leaves enough calls. -/
theorem Charted.complete_findings {r : Resource} (h : a.Charted (.ofRoot r)) (hdraft : r.draft = a.draft)
    (hname : r.name? = some a.root) (hroot : (a.root, r.contents) ∈ a.documents) {rank : Nat}
    (hlists : a.lists rank (a.root, []) = true) {data : Json} (hdata : Within known n data)
    (hfuel : span * n + rank ≤ nestingLimit) : (findings r data).Complete := by
  obtain ⟨m, hm, haddress, hrank, schema, hcontents⟩ := exists_landmark h.sound hlists
  have hsame := h.contents_root haddress hcontents hroot
  subst hsame
  have hlisted := List.all_eq_true.mp h.sound m hm
  rw [hcontents, Option.any_some] at hlisted
  have hcovers := (Bool.and_eq_true_iff.mp hlisted).2
  have hmem : a.root ∈ a.names := List.mem_map.mpr ⟨_, hroot, rfl⟩
  have hrooted := Scope.rooted_ofRoot hname hmem
  have hbase : (Scope.ofRoot r).base = m.uri := by
    rw [(Prod.mk.inj haddress).1, Scope.ofRoot, hname]
    rfl
  refine h.upheld.complete_walk (survey_eq_true.mpr ⟨hdraft, hdraft ▸ hrooted, ?_⟩) hdata
  exact ⟨_, _, by omega, hbase ▸ hcovers⟩

/-! ## Checking an atlas -/

variable (a l)

/-- A library finds a resource. -/
def finds (found : Except Failure (Option Resource)) (contents : Json) : Bool :=
  found.toOption.join.any fun r : Resource => r.draft = a.draft && r.contents = contents

/-- A library finds a dynamic anchor at a resource. -/
def findsAnchor (found : Except Failure (Option Anchor)) (contents : Json) : Bool :=
  found.toOption.join.any fun anchor : Anchor =>
    anchor.isDynamic && anchor.resource.draft = a.draft && anchor.resource.contents = contents

/-- All that has to be so for a library to know an atlas. -/
def isCharted : Bool :=
  a.names.all (· ≠ "") && a.documents.all (fun p => a.finds (l.resource? p.1) p.2) && a.isSound &&
    (!a.isRecursive || a.documents.all fun p => Scope.isRecursiveAnchor p.2 &&
      a.names.all fun b => Scope.address ⟨a.draft, b, []⟩ p.1 = (p.1, [])) &&
    (!a.isDynamic || a.documents.all fun p => a.findsAnchor (l.anchor? p.1 "meta") p.2 &&
      (p.1 ≠ a.root || (Resource.mk a.draft p.2).name? = some a.root &&
        a.names.all fun b => joinNames b a.root = a.root))

variable {a l}

/-- What is found once it was told apart by its parts. -/
theorem eq_of_finds {found : Except Failure (Option Resource)} {contents : Json}
    (h : a.finds found contents = true) : found = .ok (some ⟨a.draft, contents⟩) := by
  obtain ⟨⟨d, v⟩, hjoin, hparts⟩ := (Option.any_eq_true _ _).mp h
  rw [Option.join_eq_some_iff] at hjoin
  simp only [Bool.and_eq_true, decide_eq_true_eq] at hparts
  rw [eq_ok_of_toOption hjoin, hparts.1, hparts.2]

/-- The same for an anchor. -/
theorem eq_of_findsAnchor {found : Except Failure (Option Anchor)} {contents : Json}
    (h : a.findsAnchor found contents = true) : found = .ok (some ⟨⟨a.draft, contents⟩, true⟩) := by
  obtain ⟨⟨⟨d, v⟩, dynamic⟩, hjoin, hparts⟩ := (Option.any_eq_true _ _).mp h
  rw [Option.join_eq_some_iff] at hjoin
  simp only [Bool.and_eq_true, decide_eq_true_eq] at hparts
  rw [eq_ok_of_toOption hjoin, hparts.1.1, hparts.1.2, hparts.2]

/-- An atlas that passes the check is known to the library. -/
theorem charted_of_isCharted (h : a.isCharted l = true) : a.Charted l := by
  simp only [isCharted, Bool.and_eq_true, Bool.or_eq_true, Bool.not_eq_true', List.all_eq_true,
    decide_eq_true_eq] at h
  obtain ⟨⟨⟨⟨hnamed, hresources⟩, hsound⟩, hopens⟩, hanchors⟩ := h
  exact {
    named := fun hempty => hnamed "" hempty rfl
    resources := fun p hp => eq_of_finds (hresources p hp)
    sound := hsound
    opens := fun hrecursive p hp => by
      rw [hrecursive] at hopens
      exact hopens.resolve_left nofun p hp
    anchors := fun hdynamic p hp => by
      rw [hdynamic] at hanchors
      exact eq_of_findsAnchor (hanchors.resolve_left nofun p hp).1
    rootName := fun hdynamic p hp hroot => by
      rw [hdynamic] at hanchors
      exact (hanchors.resolve_left nofun p hp).2.resolve_left fun hne => hne hroot }

end Atlas

end DocDesk.Schema
