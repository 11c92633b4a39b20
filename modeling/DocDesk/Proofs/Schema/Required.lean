import DocDesk.Proofs.Schema.Collected
import DocDesk.Proofs.Schema.Report
import Mathlib.Data.List.Nodup

/-!
# Missing names in a report

The keyword for required names raises one issue for every name that an object lacks, and a report keeps
these issues together, in the order of the list.  The parameter of an entry is found again in its message:
it is the first missing name whose quoted form occurs there.  That is the name which the issue is about
exactly if no quoted form of an earlier one occurs in what is said about a later one.

Main statements: `InRuns.walk` (no keyword breaks up the issues of a list of names),
`toldApart_of_unescaped` and `report_required`.
-/

namespace DocDesk.Schema

/-! ## Runs of issues -/

/-- An issue that the keyword for required names raised. -/
def Issue.OfRequired (i : Issue) : Prop := i.trail.getLast? = some "required"

/-- Going through another keyword, an issue stays one of missing names. -/
theorem Issue.ofRequired_through {k : String} (hk : k ≠ "required") (i : Issue) :
    (i.through k).OfRequired ↔ i.OfRequired := by
  unfold OfRequired through
  cases htrail : i.trail with
  | nil => simp [hk]
  | cons first rest => rw [List.getLast?_cons_cons]

/-- What is said about a missing name. -/
def requiredWords (name : Json) : String := name.inspect ++ " is a required property"

/-- The issues about one object under one value of the keyword, for everything that is missing. -/
structure IsRun (ms : List (String × Json)) (argument : Json) (run : List Issue) : Prop where
  issue : ∀ i ∈ run,
    i.OfRequired ∧ i.keyword = some "required" ∧ i.argument = argument ∧ i.data = .obj ms
  messages : ∃ names missing, Shape.items argument = .ok names ∧
    Assertion.missingOf ms names = .ok missing ∧ run.map Issue.message = missing.map requiredWords

/-- Issues of which those of the keyword for required names come in whole runs. -/
inductive InRuns : List Issue → Prop
  | nil : InRuns []
  | other {i : Issue} {is : List Issue} : ¬i.OfRequired → InRuns is → InRuns (i :: is)
  | run {ms : List (String × Json)} {argument : Json} {run is : List Issue} :
      IsRun ms argument run → InRuns is → InRuns (run ++ is)

/-- A change of issues that leaves alone what the runs depend on. -/
structure KeepsRuns (f : Issue → Issue) : Prop where
  ofRequired (i : Issue) : (f i).OfRequired ↔ i.OfRequired
  message (i : Issue) : (f i).message = i.message
  keyword (i : Issue) : (f i).keyword = i.keyword
  argument (i : Issue) : (f i).argument = i.argument
  data (i : Issue) : (f i).data = i.data

/-- Moving issues to a part keeps their runs. -/
theorem KeepsRuns.under (s : Step) : KeepsRuns (Issue.under s) :=
  ⟨fun _ => .rfl, fun _ => rfl, fun _ => rfl, fun _ => rfl, fun _ => rfl⟩

/-- So does going through another keyword. -/
theorem KeepsRuns.through {k : String} (hk : k ≠ "required") : KeepsRuns (Issue.through k) :=
  ⟨Issue.ofRequired_through hk, fun _ => rfl, fun _ => rfl, fun _ => rfl, fun _ => rfl⟩

namespace InRuns

variable {is js : List Issue}

/-- Runs follow runs. -/
theorem append (h : InRuns is) (hjs : InRuns js) : InRuns (is ++ js) := by
  induction h with
  | nil => exact hjs
  | other hi _ ih => exact .other hi ih
  | run hrun _ ih =>
    rw [List.append_assoc]
    exact .run hrun ih

/-- Issues of other keywords are in no run. -/
theorem of_forall_not (h : ∀ i ∈ is, ¬i.OfRequired) : InRuns is := by
  induction is with
  | nil => exact .nil
  | cons i is ih =>
    obtain ⟨hi, his⟩ := List.forall_mem_cons.mp h
    exact .other hi (ih his)

/-- What keeps runs can be done to all issues. -/
theorem map {f : Issue → Issue} (hf : KeepsRuns f) (h : InRuns is) : InRuns (is.map f) := by
  induction h with
  | nil => exact .nil
  | other hi _ ih => exact .other ((not_congr (hf.ofRequired _)).mpr hi) ih
  | @run ms argument run is hrun _ ih =>
    rw [List.map_append]
    have hmapped : IsRun ms argument (run.map f) := by
      refine ⟨fun i hi => ?_, ?_⟩
      · obtain ⟨j, hj, rfl⟩ := List.mem_map.mp hi
        rw [hf.ofRequired, hf.keyword, hf.argument, hf.data]
        exact hrun.issue j hj
      · have hmessages : (run.map f).map Issue.message = run.map Issue.message := by
          rw [List.map_map]
          exact List.map_congr_left fun i _ => hf.message i
        rw [hmessages]
        exact hrun.messages
    exact .run hmapped ih

end InRuns

/-! ## Findings in runs -/

/-- Runs hold wherever issues come in rows. -/
theorem holdsInRows_inRuns : HoldsInRows InRuns := ⟨.nil, .append⟩

/-- An issue that has come through no keyword yet is none of a run. -/
theorem Issue.not_ofRequired_of_nil {i : Issue} (h : i.trail = []) : ¬i.OfRequired := by
  unfold OfRequired
  rw [h]
  exact nofun

/-- The keyword for required names has one rule under all drafts that have it. -/
theorem rule?_required (d : Draft) :
    d.rule? "required" = none ∨ d.rule? "required" = some (.assertion .required) := by
  cases d <;> decide +kernel

/-- The issues of a list of names are one run, once they have come through their keyword. -/
theorem isRun_of_missingIssues {s : Site} {ms : List (String × Json)} {is : List Issue}
    (hkeyword : s.keyword = "required") (hdata : s.data = .obj ms)
    (h : Assertion.missingIssues s s.argument requiredWords = .ok is) :
    IsRun ms s.argument (is.map (Issue.through "required")) := by
  rw [Assertion.missingIssues, hdata] at h
  obtain ⟨names, hnames, h⟩ := exists_of_bind_eq_ok h
  obtain ⟨missing, hmissing, h⟩ := exists_of_bind_eq_ok h
  cases h
  refine ⟨fun i hi => ?_, names, missing, hnames, hmissing, ?_⟩
  · rw [List.map_map] at hi
    obtain ⟨n, -, rfl⟩ := List.mem_map.mp hi
    exact ⟨rfl, congrArg some hkeyword, rfl, hdata⟩
  · rw [List.map_map, List.map_map]
    rfl

/-- The keyword for required names tells one run. -/
theorem inRuns_required {t : Task} (hkeyword : t.site.keyword = "required") :
    ((keywordFindings t).through "required").Yields InRuns := by
  unfold keywordFindings
  rw [hkeyword]
  rcases rule?_required t.scope.draft with hrule | hrule
  · rw [hrule]
    exact .done holdsInRows_inRuns
  · rw [hrule]
    have htold : (Findings.ofExcept ((Assertion.required.issues t.scope.draft t.site).map .ofList)).Yields
        fun is => InRuns (is.map (Issue.through "required")) := by
      refine .ofExcept_map fun is his => ?_
      cases hdata : t.site.data with
      | obj ms =>
        have hrun := InRuns.run (isRun_of_missingIssues hkeyword hdata his) .nil
        rwa [List.append_nil] at hrun
      | null | bool _ | int _ | float _ | str _ | arr _ =>
        rw [Assertion.issues, Assertion.missingIssues, hdata] at his
        cases his
        exact .nil
    exact htold.map fun _ his => his

/-- No other keyword tells issues of a run of its own, or breaks one up. -/
theorem inRuns_keyword {t : Task} (hchecker : t.checker.Yields InRuns) :
    ((keywordFindings t).through t.site.keyword).Yields InRuns := by
  by_cases hkeyword : t.site.keyword = "required"
  · rw [hkeyword]
    exact inRuns_required hkeyword
  · have hbuilt : (keywordFindings t).Yields InRuns := by
      refine (builds_keywordFindings t).yields holdsInRows_inRuns (fun s _ his => his.map (.under s))
        (fun is his => ?_) (fun i htrail _ => ?_) hchecker
      · exact .of_forall_not fun i hi => Issue.not_ofRequired_of_nil (his i hi).trail
      · exact .of_forall_not
          (List.forall_mem_singleton.mpr (Issue.not_ofRequired_of_nil htrail))
    exact hbuilt.map fun _ his => his.map (.through hkeyword)

/-- What a schema finds in a value comes in whole runs. -/
theorem InRuns.walk (l : Library) (fuel : Nat) (d : Draft) (s : Scope) (schema data : Json) :
    (walk l fuel d s schema data).Yields InRuns :=
  .walk holdsInRows_inRuns
    (fun data => .other (Issue.not_ofRequired_of_nil (i := forbidden data) rfl) .nil)
    (fun c s _ schema data _ hchecker _ _ k _ =>
      inRuns_keyword (t := ⟨c, s, ⟨k.1, k.2, membersOf schema, data⟩⟩) hchecker)
    l fuel d s schema data

/-! ## Names in messages -/

/-- The front of a text occurs in it. -/
theorem occursIn_append (part behind : List Char) : occursIn part (part ++ behind) = true := by
  have hafter : Text.after? part (part ++ behind) = some behind := Text.after?_eq_some_iff.mpr rfl
  unfold occursIn
  rw [hafter]
  rfl

/-- A quoted name occurs in the words for it. -/
theorem occursIn_quoted (name : String) :
    occursIn (Text.quoted name).toList (requiredWords (.str name)).toList = true := by
  rw [requiredWords, Json.inspect_str, String.toList_append]
  exact occursIn_append _ _

/-- The names of a list that an object lacks, in the order of the list. -/
def absent (ms : List (String × Json)) (names : List String) : List String :=
  names.filter fun n => !ms.any (·.1 = n)

/-- A name does not occur, in quotes, in what is said about another one. -/
def NotShownBy (name other : String) : Prop :=
  occursIn (Text.quoted name).toList (requiredWords (.str other)).toList = false

/-- No name occurs, in quotes, in what is said about one behind it. -/
def ToldApart (names : List String) : Prop := names.Pairwise NotShownBy

instance (names : List String) : Decidable (ToldApart names) :=
  inferInstanceAs (Decidable (names.Pairwise fun name other =>
    occursIn (Text.quoted name).toList (requiredWords (.str other)).toList = false))

/-- The name that is found in what is said about a missing one: the first missing one that occurs
there. -/
def shownName (missing : List String) (name : String) : String :=
  (missing.find? fun n => occursIn (Text.quoted n).toList (requiredWords (.str name)).toList).getD name

/-- What is found for a missing name is among the missing ones, for the name itself is found. -/
theorem find?_eq_some_shownName {missing : List String} {name : String} (h : name ∈ missing) :
    (missing.find? fun n => occursIn (Text.quoted n).toList (requiredWords (.str name)).toList) =
      some (shownName missing name) := by
  rw [shownName]
  cases hfind : missing.find? fun n =>
      occursIn (Text.quoted n).toList (requiredWords (.str name)).toList with
  | none => exact absurd (occursIn_quoted _) (List.find?_eq_none.mp hfind name h)
  | some n => rfl

/-- The name that is shown for the words is the first whose quoted form occurs in them. -/
theorem missingParam_requiredWords {missing : List String} {name : String} (h : name ∈ missing) :
    missingParam (requiredWords (.str name)) (missing.map .str) = .str (shownName missing name) := by
  have hfind : (missing.map Json.str).find? (fun n =>
      occursIn n.inspect.toList (requiredWords (.str name)).toList) =
        (missing.find? fun n =>
          occursIn (Text.quoted n).toList (requiredWords (.str name)).toList).map .str := by
    rw [List.find?_map]
    simp only [Function.comp_def, Json.inspect_str]
  rw [missingParam, hfind, find?_eq_some_shownName h]
  rfl

/-- A missing name is found for itself exactly if no earlier one occurs in what is said about it. -/
theorem shownName_getElem_iff {missing : List String} (hnodup : missing.Nodup) {j : Nat}
    (hj : j < missing.length) : shownName missing missing[j] = missing[j] ↔
      ∀ i, (hi : i < j) → NotShownBy missing[i] missing[j] := by
  constructor
  · intro hshown i hi
    -- what is found stands at a place of its own, with nothing of the kind in front of it
    have hfind := find?_eq_some_shownName (List.getElem_mem hj)
    obtain ⟨-, k, hk, hget, hfront⟩ := List.find?_eq_some_iff_getElem.mp hfind
    obtain rfl : k = j := hnodup.getElem_inj_iff.mp (hget.trans hshown)
    exact (Bool.not_eq_true' _).mp (hfront i hi)
  · intro hfront
    have hfind : (missing.find? fun n =>
        occursIn (Text.quoted n).toList (requiredWords (.str missing[j])).toList) = some missing[j] := by
      refine List.find?_eq_some_iff_getElem.mpr ⟨occursIn_quoted _, j, hj, rfl, fun i hi => ?_⟩
      rw [show occursIn _ _ = false from hfront i hi]
      rfl
    rw [shownName, hfind, Option.getD_some]

/-- Of distinct missing names every one is found for itself exactly if they are told apart. -/
theorem map_shownName_iff {missing : List String} (hnodup : missing.Nodup) :
    missing.map (shownName missing) = missing ↔ ToldApart missing := by
  rw [ToldApart, List.pairwise_iff_getElem]
  constructor
  · intro hshown i j hi hj hij
    have hown : shownName missing missing[j] = missing[j] := by
      have hlength : j < (missing.map (shownName missing)).length := by rwa [List.length_map]
      have hget : (missing.map (shownName missing))[j] = missing[j] := by simp only [hshown]
      rwa [List.getElem_map] at hget
    exact (shownName_getElem_iff hnodup hj).mp hown i hij
  · intro hapart
    refine List.ext_getElem (List.length_map _) fun j _ hj => ?_
    rw [List.getElem_map]
    exact (shownName_getElem_iff hnodup hj).mpr fun i hi => hapart i j (Nat.lt_trans hi hj) hj hi

/-- What is found for a missing name is not behind it. -/
theorem exists_shownName (missing : List String) {j : Nat} (hj : j < missing.length) :
    ∃ i, ∃ hi : i ≤ j, shownName missing missing[j] = missing[i] := by
  have hfind := find?_eq_some_shownName (List.getElem_mem hj)
  obtain ⟨-, i, hi, hget, hfront⟩ := List.find?_eq_some_iff_getElem.mp hfind
  have hij : i ≤ j := by
    refine Nat.le_of_not_lt fun hji => ?_
    have hnot := hfront j hji
    rw [occursIn_quoted] at hnot
    cases hnot
  exact ⟨i, hij, hget.symm⟩

/-- Of distinct missing names none is found twice exactly if they are told apart. -/
theorem nodup_map_shownName_iff {missing : List String} (hnodup : missing.Nodup) :
    (missing.map (shownName missing)).Nodup ↔ ToldApart missing := by
  constructor
  · intro hshown
    refine (map_shownName_iff hnodup).mp (List.ext_getElem (List.length_map _) fun j _ hj => ?_)
    rw [List.getElem_map]
    -- on the place of the name: the ones in front of it are found for themselves already
    induction j using Nat.strongRecOn with
    | _ j ih =>
      obtain ⟨i, hij, heq⟩ := exists_shownName missing hj
      rcases Nat.lt_or_eq_of_le hij with hlt | rfl
      · have hi : i < missing.length := Nat.lt_trans hlt hj
        have hsame : shownName missing missing[i] = shownName missing missing[j] :=
          (ih i hlt (by rwa [List.length_map]) hi).trans heq.symm
        have hplaces : i = j := by
          have hlength : j < (missing.map (shownName missing)).length := by rwa [List.length_map]
          refine hshown.getElem_inj_iff.mp
            (show (missing.map (shownName missing))[i] = (missing.map (shownName missing))[j] from ?_)
          rw [List.getElem_map, List.getElem_map, hsame]
        exact absurd hplaces (Nat.ne_of_lt hlt)
      · exact heq
  · intro hapart
    rwa [(map_shownName_iff hnodup).mpr hapart]

/-! ## Names that need no escapes -/

/-- A name that stands between single quotes as it is. -/
def Unescaped (name : String) : Prop := ∀ c ∈ name.toList, Text.quotedChar '\'' c = [c]

/-- A name that needs no escapes has no quote. -/
theorem Unescaped.quote_notMem {name : String} (h : Unescaped name) : '\'' ∉ name.toList := by
  intro hmem
  exact absurd (h _ hmem) (by decide)

/-- It is quoted as it is. -/
theorem Unescaped.quoted {name : String} (h : Unescaped name) :
    (Text.quoted name).toList = '\'' :: name.toList ++ ['\''] := by
  have hquote : Text.quoteFor name.toList = '\'' := if_neg fun hboth => h.quote_notMem hboth.1
  have hbody : name.toList.flatMap (Text.quotedChar '\'') = name.toList := by
    rw [List.flatMap_congr h, List.flatMap_singleton']
  rw [Text.quoted, String.toList_ofList, Text.quotedChars, hquote, hbody]

/-- A text that occurs in another stands somewhere in it. -/
theorem exists_of_occursIn {part cs : List Char} (h : occursIn part cs = true) :
    ∃ front behind, cs = front ++ part ++ behind := by
  induction cs with
  | nil =>
    rw [occursIn, Bool.or_false] at h
    obtain ⟨behind, hafter⟩ := Option.isSome_iff_exists.mp h
    exact ⟨[], behind, Text.after?_eq_some_iff.mp hafter⟩
  | cons c cs ih =>
    rw [occursIn, Bool.or_eq_true] at h
    rcases h with hhere | hlater
    · obtain ⟨behind, hafter⟩ := Option.isSome_iff_exists.mp hhere
      exact ⟨[], behind, Text.after?_eq_some_iff.mp hafter⟩
    · obtain ⟨front, behind, rfl⟩ := ih hlater
      exact ⟨c :: front, behind, rfl⟩

/-- What is said about a name without escapes holds no other such name in quotes. -/
theorem NotShownBy.of_unescaped {name other : String} (hname : Unescaped name)
    (hother : Unescaped other) (hne : name ≠ other) : NotShownBy name other := by
  refine eq_false_of_ne_true fun hoccurs => hne ?_
  obtain ⟨front, behind, hwords⟩ := exists_of_occursIn hoccurs
  rw [requiredWords, Json.inspect_str, String.toList_append, hname.quoted, hother.quoted] at hwords
  -- there are two quotes only, so the name starts where the other one does
  have hfront : front = [] := by
    have hcount := congrArg (List.count '\'') hwords
    simp only [List.count_append, List.count_cons_self, List.count_nil,
      List.count_eq_zero.mpr hname.quote_notMem, List.count_eq_zero.mpr hother.quote_notMem] at hcount
    have hnone : '\'' ∉ front := by
      refine List.count_eq_zero.mp ?_
      have htail : List.count '\'' " is a required property".toList = 0 := by decide
      omega
    cases front with
    | nil => rfl
    | cons c front =>
      have hhead := (List.cons.inj hwords).1
      subst hhead
      exact absurd List.mem_cons_self hnone
  subst hfront
  have hbehind : other.toList ++ '\'' :: " is a required property".toList =
      name.toList ++ '\'' :: behind := by
    simpa using hwords
  have hparts := congrArg (Text.splitAt '\'') hbehind
  rw [Text.splitAt_append hother.quote_notMem, Text.splitAt_append hname.quote_notMem] at hparts
  exact String.toList_inj.mp (List.cons.inj hparts).1.symm

/-- Distinct names that need no escapes are told apart. -/
theorem toldApart_of_unescaped {names : List String} (hnodup : names.Nodup)
    (h : ∀ n ∈ names, Unescaped n) : ToldApart names :=
  hnodup.imp_of_mem fun hname hother hne => .of_unescaped (h _ hname) (h _ hother) hne

/-! ## Entries of a run -/

/-- The entries of all missing names of a list, about an object. -/
structure TellsMissing (ms : List (String × Json)) (names : List String) (told : List Entry) : Prop where
  entry : ∀ e ∈ told, e.keyword = "required" ∧ e.data = .obj ms
  messages : told.map Entry.message = (absent ms names).map fun n => requiredWords (.str n)
  params : told.map Entry.params =
    (absent ms names).map fun n => ("missingProperty", .str (shownName (absent ms names) n))
  ownNames : told.map Entry.params = (absent ms names).map (fun n => ("missingProperty", .str n)) ↔
    ToldApart (absent ms names)
  distinct : (told.map Entry.params).Nodup ↔ ToldApart (absent ms names)

/-- The parameter of a missing name is found in the message, among all names that are missing. -/
theorem params_of_required {ms : List (String × Json)} {names : List String} {i : Issue}
    (hkeyword : i.keyword = some "required") (hargument : i.argument = .arr (names.map .str))
    (hdata : i.data = .obj ms) :
    i.params = .ok ("missingProperty", missingParam i.message ((absent ms names).map .str)) := by
  have hitems : Shape.items (.arr (names.map .str)) = .ok (names.map .str) := rfl
  rw [Issue.params, hkeyword, hdata, hargument]
  simp only [hitems, Assertion.missingOf_str, bind, Except.bind]
  rfl

/-- The entry of an issue about a missing name. -/
theorem entry_of_required {ms : List (String × Json)} {names : List String} {i : Issue} {e : Entry}
    (hkeyword : i.keyword = some "required") (hargument : i.argument = .arr (names.map .str))
    (hdata : i.data = .obj ms) (h : i.entry = .ok e) :
    e = ⟨Pointer.text i.path, i.message, "required",
      ("missingProperty", missingParam i.message ((absent ms names).map .str)), .obj ms⟩ := by
  rw [Issue.entry, params_of_required hkeyword hargument hdata, hkeyword, hdata] at h
  exact (Except.ok.inj h).symm

section Told

variable {ms : List (String × Json)} {names : List String} {run : List Issue} {told : List Entry}

/-- The messages of a run name the missing names one by one. -/
theorem IsRun.message_eq (h : IsRun ms (.arr (names.map .str)) run) :
    run.map Issue.message = (absent ms names).map fun n => requiredWords (.str n) := by
  obtain ⟨items, missing, hitems, hmissing, hmessages⟩ := h.messages
  cases hitems
  rw [Assertion.missingOf_str] at hmissing
  cases hmissing
  rw [hmessages, List.map_map]
  rfl

/-- The entries of a run differ in their paths and messages, and in the names found by the messages. -/
theorem IsRun.told_eq (h : IsRun ms (.arr (names.map .str)) run)
    (htold : List.Forall₂ (fun i e => i.entry = .ok e) run told) :
    told = run.map fun i => ⟨Pointer.text i.path, i.message, "required",
      ("missingProperty", missingParam i.message ((absent ms names).map .str)), .obj ms⟩ := by
  have hissue := h.issue
  clear h
  induction htold with
  | nil => rfl
  | cons hentry _ ih =>
    obtain ⟨⟨-, hkeyword, hargument, hdata⟩, hrest⟩ := List.forall_mem_cons.mp hissue
    rw [entry_of_required hkeyword hargument hdata hentry, ih hrest]
    rfl

/-- Its parameters name what is shown for them. -/
theorem IsRun.params_eq (h : IsRun ms (.arr (names.map .str)) run)
    (htold : List.Forall₂ (fun i e => i.entry = .ok e) run told) :
    told.map Entry.params =
      (absent ms names).map fun n => ("missingProperty", .str (shownName (absent ms names) n)) := by
  have hshown : told.map Entry.params = (run.map Issue.message).map fun m =>
      ("missingProperty", missingParam m ((absent ms names).map .str)) := by
    rw [h.told_eq htold, List.map_map, List.map_map]
    rfl
  rw [hshown, h.message_eq, List.map_map]
  exact List.map_congr_left fun n hn => congrArg (Prod.mk _) (missingParam_requiredWords hn)

/-- A run tells all names that are missing. -/
theorem IsRun.tells (h : IsRun ms (.arr (names.map .str)) run)
    (htold : List.Forall₂ (fun i e => i.entry = .ok e) run told) (hnodup : names.Nodup) :
    TellsMissing ms names told := by
  have hentries := h.told_eq htold
  have hparams := h.params_eq htold
  have hparam : Function.Injective fun n : String => ("missingProperty", Json.str n) := by
    intro a b hab
    exact Json.str.inj (Prod.mk.inj hab).2
  have habsent : (absent ms names).Nodup := hnodup.filter _
  have hcomp : ((absent ms names).map fun n =>
      ("missingProperty", Json.str (shownName (absent ms names) n))) =
        ((absent ms names).map (shownName (absent ms names))).map fun n =>
          ("missingProperty", Json.str n) := by
    rw [List.map_map]
    rfl
  exact {
    entry := by
      intro e he
      rw [hentries] at he
      obtain ⟨i, -, rfl⟩ := List.mem_map.mp he
      exact ⟨rfl, rfl⟩
    messages := by
      rw [hentries, List.map_map, ← h.message_eq]
      rfl
    params := hparams
    ownNames := by
      rw [hparams, hcomp, List.map_inj_right fun _ _ => hparam.eq_iff.mp, map_shownName_iff habsent]
    distinct := by
      rw [hparams, hcomp, List.nodup_map_iff hparam, nodup_map_shownName_iff habsent] }

end Told

/-- Issues with their entries, those of the keyword for required names in whole runs. -/
inductive Reported : List Issue → List Entry → Prop
  | nil : Reported [] []
  | other {i : Issue} {e : Entry} {is : List Issue} {es : List Entry} : ¬i.OfRequired →
      i.entry = .ok e → Reported is es → Reported (i :: is) (e :: es)
  | run {ms : List (String × Json)} {argument : Json} {run is : List Issue} {told es : List Entry} :
      IsRun ms argument run → List.Forall₂ (fun i e => i.entry = .ok e) run told →
      (∀ names : List String, argument = .arr (names.map .str) → names.Nodup →
        TellsMissing ms names told) →
      Reported is es → Reported (run ++ is) (told ++ es)

/-- A list that is related to two lists joined is joined of two. -/
theorem exists_append_of_forall₂ {R : α → β → Prop} {xs ys : List α} {zs : List β}
    (h : List.Forall₂ R (xs ++ ys) zs) :
    ∃ front behind, zs = front ++ behind ∧ List.Forall₂ R xs front ∧ List.Forall₂ R ys behind :=
  ⟨zs.take xs.length, zs.drop xs.length, (List.take_append_drop _ _).symm,
    (List.forall₂_take_append zs xs ys h.flip).flip, (List.forall₂_drop_append zs xs ys h.flip).flip⟩

/-- Issues that come in runs are reported in runs. -/
theorem InRuns.reported {is : List Issue} {es : List Entry} (h : InRuns is)
    (hentries : List.Forall₂ (fun i e => i.entry = .ok e) is es) : Reported is es := by
  induction h generalizing es with
  | nil =>
    cases hentries
    exact .nil
  | other hi _ ih =>
    cases hentries with
    | cons hentry hrest => exact .other hi hentry (ih hrest)
  | run hrun _ ih =>
    obtain ⟨told, rest, rfl, htold, hrest⟩ := exists_append_of_forall₂ hentries
    refine .run hrun htold (fun names hargument hnodup => ?_) (ih hrest)
    subst hargument
    exact hrun.tells htold hnodup

/-- A report tells the missing names of an object together, one for each that the list has and in the
order of the list, and every one under the first missing name that is shown in its message. -/
theorem report_required {schema data : Json} {r : Report} (h : report schema data = .ok r) :
    ∃ found issues, validate schema data = .ok found ∧ found.collect = .ok issues ∧
      Reported issues r.entries := by
  obtain ⟨d, issues, hvalidate, hcollect, hentries⟩ := exists_issues_of_report h
  exact ⟨_, issues, hvalidate, hcollect, (InRuns.walk _ _ _ _ _ _ issues hcollect).reported hentries⟩

/-- Two lists of names, one for a document and one for what is in it, and a limit between them. -/
def nestedNamesSchema : Json :=
  .obj [("required", .arr [.str "x", .str "p", .str "it's"]), ("maxProperties", .int 0),
    ("properties", .obj [("p", .obj [("required", .arr [.str "y", .str "\\", .str "z"])])])]

/-- Names are missing both in the document and in what is in it. -/
def nestedNamesDocument : Json := .obj [("p", .obj [("z", .null)])]

/-- Two objects with missing names, one within the other. -/
theorem report_required_nested : ∃ r, report nestedNamesSchema nestedNamesDocument = .ok r ∧
    r.rows = [["root", "required", "'x' is a required property"],
      ["root", "required", "\"it's\" is a required property"],
      ["root", "maxProperties", "\x7b'p': \x7b'z': None\x7d\x7d is expected to be empty"],
      ["/p", "required", "'y' is a required property"],
      ["/p", "required", "'\\\\' is a required property"]] ∧
    ToldApart ["x", "it's"] ∧ ToldApart ["y", "\\"] ∧
    ∃ found issues, validate nestedNamesSchema nestedNamesDocument = .ok found ∧
      found.collect = .ok issues ∧ Reported issues r.entries := by
  have hrows : (report nestedNamesSchema nestedNamesDocument).toOption.map Report.rows
      = some [["root", "required", "'x' is a required property"],
        ["root", "required", "\"it's\" is a required property"],
        ["root", "maxProperties", "\x7b'p': \x7b'z': None\x7d\x7d is expected to be empty"],
        ["/p", "required", "'y' is a required property"],
        ["/p", "required", "'\\\\' is a required property"]] := by
    decide +kernel
  obtain ⟨r, hr, hrows⟩ := Option.map_eq_some_iff.mp hrows
  have hreport := eq_ok_of_toOption hr
  exact ⟨r, hreport, hrows, by decide +kernel, by decide +kernel, report_required hreport⟩

/-- The missing name that an entry tells. -/
def Entry.missingProperty? (e : Entry) : Option String :=
  match e.params with
  | ("missingProperty", .str n) => some n
  | _ => none

/-- The quoted form of the first missing name is part of what is said about the second one, which is
told under the first one's name. -/
theorem report_quotedName : ∃ e e',
    report (.obj [("required", .arr [.str "a", .str "'a'"])]) (.obj []) = .ok ⟨[e, e']⟩ ∧
      e'.message = "\"'a'\" is a required property" ∧
      e.missingProperty? = some "a" ∧ e'.missingProperty? = some "a" := by
  have htold : (report (.obj [("required", .arr [.str "a", .str "'a'"])]) (.obj [])).toOption.map
      (fun r => r.entries.map fun e => (e.message, e.missingProperty?)) =
        some [("'a' is a required property", some "a"),
          ("\"'a'\" is a required property", some "a")] := by
    decide +kernel
  obtain ⟨⟨entries⟩, hreport, htold⟩ := Option.map_eq_some_iff.mp htold
  obtain ⟨e, more, rfl, he, hmore⟩ := List.map_eq_cons_iff.mp htold
  obtain ⟨e', rest, rfl, he', hrest⟩ := List.map_eq_cons_iff.mp hmore
  cases List.map_eq_nil_iff.mp hrest
  exact ⟨e, e', eq_ok_of_toOption hreport, (Prod.mk.inj he').1, (Prod.mk.inj he).2,
    (Prod.mk.inj he').2⟩

end DocDesk.Schema
