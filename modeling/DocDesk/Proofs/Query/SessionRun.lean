import DocDesk.Proofs.Query.HistoryRun
import DocDesk.Proofs.Query.Place
import DocDesk.Proofs.Text.Parts
import DocDesk.Query.Session

/-!
# Runs of a session

A session after any sequence of queries, selections and clearings, told from that sequence alone: its
results are those of the last query that ended, and its history is the newest of the queries since the
last clearing that found something.

Main statements: `run_attempt` (a query that breaks off has stored nothing), `entries_actAll` (the
history of a run) and `actAll_conforms`.
-/

namespace DocDesk.Query

/-- What is done with a session. -/
inductive Action where
  | execute (now : Timestamp) (json query : Option String)
  | select (index : Int)
  | clear

namespace Session

/-! ## Queries stage by stage -/

/-- A stage of a query: it changes the session in place, and what it stored stays if a later stage
breaks off. -/
abbrev Stage := ExceptT Fault (StateM Session)

/-- Works out the outcome of a query, records it if something was found and stores its results. -/
def attempt (now : Timestamp) (json query : Option String) : Stage Outcome := do
  let o ← (liftM (outcome json query) : Stage Outcome)
  if o.status = .ok then
    modify fun s =>
      { s with history := s.history.record ⟨Text.stripped (query.getD ""), now, o.results.length⟩ }
  modify fun s => { s with results := o.results, selected := none }
  return o

/-- A query that ends leaves the session that `execute` tells, and one that breaks off has stored
nothing. -/
theorem run_attempt (s : Session) (now : Timestamp) (json query : Option String) :
    (attempt now json query).run.run s = match s.execute now json query with
      | .ok (s', o) => (.ok o, s')
      | .error f => (.error f, s) := by
  unfold attempt execute
  cases outcome json query with
  | error f => rfl
  | ok o =>
    obtain ⟨status, results, message⟩ := o
    cases status <;> rfl

/-! ## One action -/

/-- The session after an action. -/
def act (s : Session) : Action → Session
  | .execute now json query => ((attempt now json query).run.run s).2
  | .select index => (s.select index).1
  | .clear => s.clearHistory

section Act

variable {s : Session} {now : Timestamp} {json query : Option String}

/-- An execution that returns records its query if it found something, and shows its results. -/
theorem act_of_returned {o : Outcome} (h : outcome json query = .ok o) :
    s.act (.execute now json query) =
      ⟨if o.status = .ok then s.history.record ⟨Text.stripped (query.getD ""), now, o.results.length⟩
        else s.history, o.results, none⟩ := by
  simp only [act, run_attempt, execute, h]
  rfl

/-- An execution that raises changes nothing. -/
theorem act_of_broken {f : Fault} (h : outcome json query = .error f) :
    s.act (.execute now json query) = s := by
  simp only [act, run_attempt, execute, h]
  rfl

/-- What is selected is one of the results. -/
theorem selected_select (s : Session) (index : Int) {i : Nat}
    (h : (s.select index).1.selected = some i) : i < (s.select index).1.results.length := by
  rw [(select_results s index).1]
  unfold select at h
  split at h
  · split at h
    · next hget =>
      cases h
      exact (List.getElem?_eq_some_iff.mp hget).1
    · cases h
  · cases h

end Act

end Session

/-! ## What a run leaves behind -/

/-- The outcome of a query that ends. -/
def Action.outcome? : Action → Option Outcome
  | .execute _ json query => (Session.outcome json query).toOption
  | .select _ | .clear => none

/-- The entry of a query that finds something. -/
def Action.entry? : Action → Option HistoryEntry
  | .execute now json query =>
    match Session.outcome json query with
    | .ok ⟨.ok, found, _⟩ => some ⟨Text.stripped (query.getD ""), now, found.length⟩
    | _ => none
  | .select _ | .clear => none

/-- Whether an action drops the history. -/
def Action.isClear : Action → Bool
  | .clear => true
  | .execute .. | .select _ => false

/-- The results of the last query that ended; none if it found nothing. -/
def lastResults (as : List Action) : List Match :=
  match (as.filterMap Action.outcome?).getLast? with
  | some ⟨.ok, found, _⟩ => found
  | _ => []

/-- The entries of the actions since the last clearing, newest first. -/
def recorded (as : List Action) : List HistoryEntry :=
  (as.reverse.takeWhile fun a => !a.isClear).filterMap Action.entry?

/-- Clearing leaves nothing recorded. -/
theorem recorded_concat_clear (as : List Action) : recorded (as ++ [.clear]) = [] := by
  simp [recorded, Action.isClear]

/-- Any other action adds its entry in front. -/
theorem recorded_concat {a : Action} (h : a.isClear = false) (as : List Action) :
    recorded (as ++ [a]) = a.entry?.toList ++ recorded as := by
  simp only [recorded, List.reverse_append, List.reverse_cons, List.reverse_nil, List.nil_append,
    List.singleton_append, List.takeWhile_cons, h, Bool.not_false, if_true, List.filterMap_cons]
  cases a.entry? <;> rfl

/-- What an action does to the history, if anything. -/
def Action.change? : Action → Option History.Change
  | .clear => some .clear
  | a => a.entry?.map .record

/-- The last action makes the last change. -/
theorem changes_concat (as : List Action) (a : Action) :
    (as ++ [a]).filterMap Action.change? = as.filterMap Action.change? ++ a.change?.toList := by
  rw [List.filterMap_append, List.filterMap_cons]
  cases a.change? <;> rfl

/-- An action that clears nothing records its entry. -/
theorem change?_of_not_clear {a : Action} (h : a.isClear = false) :
    a.change? = a.entry?.map .record := by
  cases a with
  | clear => cases h
  | execute | select => rfl

/-- What is recorded is the log of the changes. -/
theorem logged_changes (as : List Action) :
    History.logged (as.filterMap Action.change?) = recorded as := by
  induction as using List.reverseRecOn with
  | nil => rfl
  | append_singleton as a ih =>
    rw [changes_concat]
    by_cases ha : a.isClear = true
    · cases a with
      | clear => exact (History.logged_concat_clear _).trans (recorded_concat_clear as).symm
      | execute | select => cases ha
    · rw [Bool.not_eq_true] at ha
      rw [recorded_concat ha, change?_of_not_clear ha, ← ih]
      cases a.entry? with
      | none => rw [Option.map_none, Option.toList_none, List.append_nil]; rfl
      | some e => exact History.logged_concat_record _ e

/-- An entry was recorded by one of the actions. -/
theorem mem_of_mem_recorded {as : List Action} {e : HistoryEntry} (h : e ∈ recorded as) :
    ∃ a ∈ as, a.entry? = some e := by
  obtain ⟨a, ha, he⟩ := List.mem_filterMap.mp h
  exact ⟨a, List.mem_reverse.mp ((List.takeWhile_prefix _).sublist.mem ha), he⟩

namespace Session

/-! ## How a query ends -/

section Ends

variable {json query : Option String} {o : Outcome}

/-- A query that ends has found something in a document that could be read, or has no results. -/
theorem outcome_cases (h : outcome json query = .ok o) :
    (o.status = .ok ∧ o.results ≠ [] ∧ isBlankInput query = false) ∨
      (o.status ≠ .ok ∧ o.results = []) := by
  unfold outcome at h
  split at h
  · -- blank input
    cases h
    exact .inr ⟨nofun, rfl⟩
  · next hblank =>
    simp only [Bool.or_eq_true, not_or, Bool.not_eq_true] at hblank
    split at h
    · -- a text that is no document
      cases h
      exact .inr ⟨nofun, rfl⟩
    · next doc _ =>
      cases he : evaluate doc (Text.stripped (query.getD "")) with
      | error f => rw [he] at h; cases h
      | ok found =>
        rw [he] at h
        cases found with
        | nil => cases h; exact .inr ⟨nofun, rfl⟩
        | cons m ms => cases h; exact .inl ⟨rfl, List.cons_ne_nil _ _, hblank.2⟩

/-- A query that finds something tells how much. -/
theorem outcome_of_found {doc : Json} {m : Match} {ms : List Match} (hjson : isBlankInput json = false)
    (hquery : isBlankInput query = false) (hparse : Json.parse? json = .ok doc)
    (hfound : evaluate doc (Text.stripped (query.getD "")) = .ok (m :: ms)) :
    outcome json query = .ok ⟨.ok, m :: ms,
      "Found " ++ String.ofList (natText (ms.length + 1)) ++ " result(s)."⟩ := by
  simp only [outcome, hjson, hquery, Bool.or_self, Bool.false_eq_true, if_false, hparse, hfound]
  rfl

/-- Taking away the blanks around a query makes it no blanker. -/
theorem isBlankInput_stripped (query : Option String) :
    isBlankInput (some (Text.stripped (query.getD ""))) = isBlankInput query := by
  simp only [isBlankInput, Text.isBlankText, Text.stripped, Option.getD_some, String.toList_ofList,
    Text.strip_strip]

/-- A query ends as the same query without the blanks around it. -/
theorem outcome_stripped (json query : Option String) :
    outcome json (some (Text.stripped (query.getD ""))) = outcome json query := by
  simp only [outcome, isBlankInput_stripped, Option.getD_some, Text.stripped_stripped]

/-- The outcome of a query on a session is that of the query itself. -/
theorem outcome_of_execute {s s' : Session} {now : Timestamp}
    (h : s.execute now json query = .ok (s', o)) : outcome json query = .ok o := by
  unfold execute at h
  cases ho : outcome json query with
  | error f => rw [ho] at h; cases h
  | ok o' => rw [ho] at h; cases h; rfl

end Ends

/-! ## Runs -/

/-- The session after actions one after the other. -/
def actAll (s : Session) (as : List Action) : Session := as.foldl act s

/-- The last action acts on what those before it left. -/
theorem actAll_concat (s : Session) (as : List Action) (a : Action) :
    s.actAll (as ++ [a]) = (s.actAll as).act a := by
  simp [actAll]

section Runs

variable {h : History}

/-- No run selects what is not there. -/
theorem selected_actAll {as : List Action} {i : Nat} (hi : ((new h).actAll as).selected = some i) :
    i < ((new h).actAll as).results.length := by
  induction as using List.reverseRecOn with
  | nil => cases hi
  | append_singleton as a ih =>
    rw [actAll_concat] at hi ⊢
    cases a with
    | execute now json query =>
      cases ho : outcome json query with
      | error f =>
        rw [act_of_broken ho] at hi ⊢
        exact ih hi
      | ok o =>
        rw [act_of_returned ho] at hi
        cases hi
    | select index => exact selected_select _ _ hi
    | clear => exact ih hi

/-- The results after a run are those of the last query that ended. -/
theorem results_actAll (as : List Action) : ((new h).actAll as).results = lastResults as := by
  induction as using List.reverseRecOn with
  | nil => rfl
  | append_singleton as a ih =>
    have hother (hnone : a.outcome? = none) : lastResults (as ++ [a]) = lastResults as := by
      simp [lastResults, hnone]
    rw [actAll_concat]
    cases a with
    | execute now json query =>
      cases ho : outcome json query with
      | error f =>
        rw [act_of_broken ho, ih, hother]
        simp only [Action.outcome?, ho]
        rfl
      | ok o =>
        have hlast : Action.outcome? (.execute now json query) = some o := by
          simp only [Action.outcome?, ho]
          rfl
        rw [act_of_returned ho]
        simp only [lastResults, List.filterMap_append, List.filterMap_cons, hlast, List.filterMap_nil,
          List.getLast?_concat]
        -- an outcome of any other status has no results
        obtain ⟨status, found, message⟩ := o
        rcases outcome_cases ho with ⟨rfl, -⟩ | ⟨hstatus, rfl⟩
        · rfl
        · split
          · next heq => cases heq; rfl
          · rfl
    | select index => rw [hother rfl, ← ih]; exact (select_results _ index).1
    | clear => rw [hother rfl, ← ih]; rfl

/-- An action changes the history by the record or the clearing that it stands for, and by nothing
else. -/
theorem history_act (s : Session) (a : Action) :
    (s.act a).history = s.history.run a.change?.toList := by
  cases a with
  | execute now json query =>
    cases ho : outcome json query with
    | error f =>
      rw [act_of_broken ho]
      simp only [Action.change?, Action.entry?, ho]
      rfl
    | ok o =>
      rw [act_of_returned ho]
      simp only [Action.change?, Action.entry?, ho]
      obtain ⟨status, found, message⟩ := o
      cases status <;> rfl
  | select index => exact (select_results s index).2
  | clear => rfl

/-- The history of a run is that of the records and clearings in it. -/
theorem history_actAll (as : List Action) :
    ((new h).actAll as).history = h.run (as.filterMap Action.change?) := by
  induction as using List.reverseRecOn with
  | nil => rfl
  | append_singleton as a ih =>
    rw [actAll_concat, history_act, ih, changes_concat, History.run_append]

/-- The history after a run holds the newest entries since the last clearing, up to the limit. -/
theorem entries_actAll (hempty : h.entries = []) (as : List Action) :
    ((new h).actAll as).history.entries = (recorded as).take h.limit := by
  rw [history_actAll, History.entries_run hempty, logged_changes]

end Runs

/-! ## Entries of the history -/

/-- An entry tells of a query on a document text that found something, and the query that it shows finds
the same there in every session. -/
structure Recalls (e : HistoryEntry) (json query : Option String) (found : List Match) : Prop where
  query_eq : e.query = Text.stripped (query.getD "")
  notBlank : Text.isBlankText e.query = false
  count_eq : e.count = found.length
  found_ne_nil : found ≠ []
  again : ∀ (s : Session) (now : Timestamp), ∃ s' o,
    s.execute now json (some e.query) = .ok (s', o) ∧ o.status = .ok ∧ o.results = found

/-- An entry recalls the execution that recorded it. -/
theorem recalls_of_entry? {a : Action} {e : HistoryEntry} (h : a.entry? = some e) :
    ∃ json query found, a = .execute e.timestamp json query ∧ Recalls e json query found := by
  cases a with
  | execute now json query =>
    simp only [Action.entry?] at h
    split at h
    · next found message ho =>
      cases h
      obtain ⟨-, hfound, hquery⟩ | ⟨hstatus, -⟩ := outcome_cases ho
      · refine ⟨json, query, found, rfl, rfl, ?_, rfl, hfound, ?_⟩
        · exact (isBlankInput_stripped query).trans hquery
        · intro s now'
          rw [← outcome_stripped] at ho
          exact ⟨_, _, by rw [execute, ho]; rfl, rfl, rfl⟩
      · exact absurd rfl hstatus
    · cases h
  | select | clear => cases h

/-- At every point of a run of a session with a limit of at least one: what is selected is there, the
results are those of the last query that ended, the history holds the newest entries since the last
clearing, each of a query that finds the same again, and a query without success, a selection and a query
that breaks off each leave alone what is not theirs. -/
theorem actAll_conforms {limit : Int} (hlimit : 1 ≤ limit) :
    ∃ h, History.new? limit = some h ∧ ∀ as : List Action, ∀ s, s = (new h).actAll as →
      (∀ i, s.selected = some i → i < s.results.length) ∧
      s.results = lastResults as ∧
      s.history.entries = (recorded as).take limit.toNat ∧
      (∀ e ∈ s.history.entries, ∃ json query found,
        Action.execute e.timestamp json query ∈ as ∧ Recalls e json query found) ∧
      (∀ now json query s' o, s.execute now json query = .ok (s', o) → o.status ≠ .ok →
        s'.history = s.history) ∧
      (∀ index, (s.select index).1.history = s.history ∧ (s.select index).1.results = s.results) ∧
      ∀ now json query f s', (attempt now json query).run.run s = (.error f, s') → s' = s := by
  have hpos : 0 < limit.toNat := by omega
  refine ⟨⟨limit.toNat, [], hpos, Nat.zero_le _⟩, dif_pos hpos, ?_⟩
  rintro as s rfl
  have hentries := entries_actAll (h := ⟨limit.toNat, [], hpos, Nat.zero_le _⟩) rfl as
  refine ⟨fun i => selected_actAll, results_actAll as, hentries, ?_, ?_, ?_, ?_⟩
  · intro e he
    rw [hentries] at he
    obtain ⟨a, ha, hentry⟩ := mem_of_mem_recorded (List.mem_of_mem_take he)
    obtain ⟨json, query, found, rfl, hrecalls⟩ := recalls_of_entry? hentry
    exact ⟨json, query, found, ha, hrecalls⟩
  · intro now json query s' o hexecute hstatus
    unfold execute at hexecute
    cases ho : outcome json query with
    | error f => rw [ho] at hexecute; cases hexecute
    | ok o' =>
      rw [ho] at hexecute
      cases hexecute
      exact if_neg hstatus
  · intro index
    exact (select_results _ index).symm
  · intro now json query f s' hrun
    rw [run_attempt] at hrun
    split at hrun
    · cases hrun
    · cases hrun
      rfl

/-- Two queries that find something and a selection. -/
def shortRun : List Action :=
  [.execute (.whole 1) (some "[7]") (some "$"),
    .execute (.whole 2) (some "[7, true]") (some " $[*]"), .select 1]

/-- A session of limit one keeps the second query alone, without the blank in front of it. -/
theorem actAll_conforms_shortRun : (1 : Int) ≤ 1 ∧ ∃ h, History.new? 1 = some h ∧
    ((new h).actAll shortRun).results = [⟨"$[0]", .int 7⟩, ⟨"$[1]", .bool true⟩] ∧
    ((new h).actAll shortRun).history.entries = [⟨"$[*]", .whole 2, 2⟩] := by
  have hroot : parsePath "$" = .ok ⟨[]⟩ := by cbv
  have hwildcard : parsePath "$[*]" = .ok ⟨[.wildcard]⟩ := by cbv
  have hstripped : Text.stripped " $[*]" = "$[*]" := rfl
  have hfirst := @outcome_of_found (some "[7]") (some "$") (.arr [.int 7]) ⟨"$", .arr [.int 7]⟩ []
    rfl rfl rfl (evaluate_of_parsePath hroot)
  have hsecond := @outcome_of_found (some "[7, true]") (some " $[*]") (.arr [.int 7, .bool true])
    ⟨"$[0]", .int 7⟩ [⟨"$[1]", .bool true⟩] rfl rfl rfl (evaluate_of_parsePath hwildcard)
  refine ⟨by decide, ?_⟩
  obtain ⟨h, hnew, hruns⟩ := @actAll_conforms 1 (by decide)
  obtain ⟨-, hresults, hentries, -⟩ := hruns shortRun _ rfl
  refine ⟨h, hnew, hresults.trans ?_, hentries.trans ?_⟩
  · simp [shortRun, lastResults, List.filterMap_cons, Action.outcome?, hfirst, hsecond, Except.toOption]
  · simp [shortRun, recorded, Action.isClear, List.filterMap_cons, Action.entry?, hfirst, hsecond,
      hstripped]

end Session

end DocDesk.Query
