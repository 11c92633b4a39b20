import DocDesk.Panel.Query
import DocDesk.Proofs.Json.RoundTrip
import DocDesk.Proofs.Number.Whole
import DocDesk.Proofs.Query.SessionRun

/-!
# Drop-downs of the query panel

The result drop-down holds nothing but texts, and a text that is picked leads back to its result by the
index in front of its first colon.  So the drop-down has to be filled from the results that the session
holds when the text is picked, whatever was done to the panel in between.

Main statements: `choiceIndex?_resultChoice` (the index in front of a choice), `InStep.act` (no action
lets the drop-downs and the session get out of step) and `picks_own_result`.
-/

namespace DocDesk.Panel.QueryPanel

open Query

/-! ## Choices -/

/-- The text of a choice in front of its first colon. -/
def front (selection : String) : List Char := selection.toList.takeWhile (· ≠ ':')

/-- The index of a text is the whole number in front of its first colon. -/
theorem choiceIndex?_str (selection : String) :
    choiceIndex? (.str selection) = (Whole.read (String.ofList (front selection))).toOption := by
  by_cases hempty : selection = ""
  · -- the empty text counts as no selection, and is no number either
    subst hempty
    rfl
  · have hsolid : (Json.str selection).isFalsy = false := by
      unfold Json.isFalsy
      split <;> simp_all
    simp only [choiceIndex?, hsolid, Bool.false_eq_true, if_false, Json.plain, front]
    cases Whole.read _ <;> rfl

/-- A choice starts with the index of its result. -/
theorem front_resultChoice (m : Match) (i : Nat) : front (resultChoice (m, i)) = natText i := by
  have hplain : ∀ c ∈ natText i, decide (c ≠ ':') = true := by
    intro c hc
    refine decide_eq_true fun heq => ?_
    have hdigit := isDigit_of_mem_natText hc
    rw [heq] at hdigit
    cases hdigit
  simp only [front, resultChoice, String.toList_append, String.toList_ofList, List.append_assoc]
  exact Text.takeWhile_append_of_stop hplain (by simp)

/-- The index of a choice is read back from it, whatever stands behind it. -/
theorem choiceIndex?_resultChoice (m : Match) {i : Nat} (hi : i < indexLimit) :
    choiceIndex? (.str (resultChoice (m, i))) = some (i : Int) := by
  rw [choiceIndex?_str, front_resultChoice, Whole.read_natText (lt_indexLimit_iff.mp hi)]
  rfl

/-- The choices for the results of a session, in their order. -/
def choicesOf (s : Session) : List String := s.results.zipIdx.map resultChoice

/-- A choice is that of a result. -/
theorem getElem?_choicesOf {s : Session} {i : Nat} {c : String} (h : (choicesOf s)[i]? = some c) :
    ∃ m, s.results[i]? = some m ∧ c = resultChoice (m, i) := by
  rw [choicesOf, List.getElem?_map, List.getElem?_zipIdx, Nat.zero_add] at h
  cases hm : s.results[i]? with
  | none => rw [hm] at h; cases h
  | some m => rw [hm] at h; cases h; exact ⟨m, rfl, rfl⟩

/-! ## Details -/

section Detail

variable {p : QueryPanel} {selection : Json}

/-- Without an index nothing is selected. -/
theorem detail_of_none (h : choiceIndex? selection = none) : p.detail selection = (p, "") := by
  simp only [detail, h]

/-- A text whose index is that of a result selects it and shows its value. -/
theorem detail_of_result {s : Session} {i : Nat} {m : Match} (hs : p.session = some s)
    (hm : s.results[i]? = some m) (h : choiceIndex? selection = some (i : Int)) :
    p.detail selection = ({ p with session := some { s with selected := some i } },
      m.value.render (.ofWidth p.settings.defaultIndent)) := by
  have hselect : s.select i = ({ s with selected := some i }, some m) := by
    simp only [Session.select, Int.natCast_nonneg, if_true, Int.toNat_natCast, hm]
  have hensured : p.ensured = s := by rw [ensured, hs, Option.getD_some]
  simp only [detail, h, hensured, hselect, hs]
  rfl

/-- A text whose index is that of no result shows nothing and leaves nothing selected. -/
theorem detail_of_outside {i : Int} (h : choiceIndex? selection = some i)
    (hi : i < 0 ∨ p.ensured.results.length ≤ i) :
    p.detail selection
      = ({ p with session := p.session.map fun s => { s with selected := none } }, "") := by
  have hselect : p.ensured.select i = ({ p.ensured with selected := none }, none) := by
    unfold Session.select
    split
    · have hnone : p.ensured.results[i.toNat]? = none := List.getElem?_eq_none (by omega)
      rw [hnone]
    · rfl
  simp only [detail, h, hselect]
  cases hs : p.session with
  | none => rfl
  | some s =>
    have hensured : p.ensured = s := by rw [ensured, hs, Option.getD_some]
    rw [hensured]
    rfl

end Detail

/-! ## Drop-downs in step with the session -/

/-- What is done with the panel. -/
inductive Action where
  | run (now : Timestamp) (json query : Option String)
  | rerun (now : Timestamp) (json selection : Option String)
  | detail (selection : Json)
  | clear

/-- A panel with what its drop-downs were last filled with. -/
structure View where
  panel : QueryPanel
  choices : List String
  history : List String

/-- The view after a query that may have broken off; then everything stays as it was. -/
def View.show (v : View) : Except Fault (QueryPanel × QueryReply) → View
  | .ok (p, r) => ⟨p, r.choices.items, r.history.items⟩
  | .error _ => v

/-- The view after an action.  A detail fills no drop-down, and a clearing that of the history alone. -/
def View.act (v : View) : Action → View
  | .run now json query => v.show (v.panel.run now json query)
  | .rerun now json selection => v.show (v.panel.rerun now json selection)
  | .detail selection => { v with panel := (v.panel.detail selection).1 }
  | .clear => { v with panel := v.panel.clear.1, history := v.panel.clear.2.history.items }

/-- The view after actions one after the other, from a panel without a session. -/
def View.after (settings : Settings) (as : List Action) : View :=
  as.foldl View.act ⟨⟨settings, none⟩, [], []⟩

/-- The drop-downs hold what the session holds, and nothing while there is none. -/
structure View.InStep (v : View) : Prop where
  choices_eq : v.choices = v.panel.session.elim [] choicesOf
  history_eq : v.history = v.panel.session.elim [] fun s => s.history.queries

/-- A reply shows one choice for every result of a session and the queries of its history. -/
structure Shows (r : QueryReply) (s : Session) : Prop where
  choices_eq : r.choices.items = choicesOf s
  rows_eq : r.rows = s.history.entries.map fun e => (e.query, e.count)
  history_eq : r.history.items = r.rows.map Prod.fst

/-- A reply shows the session. -/
theorem shows_reply (results : Option (List Match)) (message : String) (s : Session) :
    Shows (reply results message s) s :=
  ⟨rfl, rfl, run_history results message s⟩

/-- It lists the queries of the history. -/
theorem Shows.history_queries {r : QueryReply} {s : Session} (h : Shows r s) :
    r.history.items = s.history.queries := by
  rw [h.history_eq, h.rows_eq, List.map_map]
  rfl

section Queries

variable {p p' : QueryPanel} {now : Timestamp} {json query : Option String} {r : QueryReply}

/-- A query that ends shows the session that it leaves, without a choice if it found nothing. -/
theorem exists_shows_of_run (h : p.run now json query = .ok (p', r)) :
    ∃ s o, p.ensured.execute now json query = .ok (s, o) ∧ p' = { p with session := some s } ∧
      Shows r s ∧ (o.status ≠ .ok → r.choices.items = []) := by
  unfold run at h
  cases hexecute : p.ensured.execute now json query with
  | error f => rw [hexecute] at h; cases h
  | ok so =>
    obtain ⟨s, o⟩ := so
    rw [hexecute] at h
    cases h
    refine ⟨s, o, rfl, rfl, shows_reply _ _ s, fun hstatus => ?_⟩
    -- the results of the session are those of the outcome, which has none
    have hresults : s.results = [] := by
      rw [(Session.execute_results hexecute).1]
      obtain ⟨ho, -⟩ | ⟨-, hnil⟩ := Session.outcome_cases (Session.outcome_of_execute hexecute)
      · exact absurd ho hstatus
      · exact hnil
    rw [(shows_reply _ _ s).choices_eq, choicesOf, hresults]
    rfl

/-- Running a query of the history again is running it; without one the panel shows its session. -/
theorem exists_shows_of_rerun {selection : Option String}
    (h : p.rerun now json selection = .ok (p', r)) :
    ∃ s, p' = { p with session := some s } ∧ Shows r s ∧
      (selection.getD "" = "" ∧ s = p.ensured ∨
        selection.getD "" ≠ "" ∧ p.run now json selection = .ok (p', r)) := by
  unfold rerun at h
  split at h
  · next hnone =>
    cases h
    exact ⟨p.ensured, rfl, shows_reply _ _ _, .inl ⟨hnone, rfl⟩⟩
  · next hsome =>
    obtain ⟨s, o, -, hp, hshows, -⟩ := exists_shows_of_run h
    exact ⟨s, hp, hshows, .inr ⟨hsome, h⟩⟩

end Queries

section InStep

variable {v : View}

/-- A session that is made for an action brings no choices. -/
theorem choicesOf_ensured (p : QueryPanel) : choicesOf p.ensured = p.session.elim [] choicesOf := by
  unfold ensured
  cases p.session <;> rfl

/-- A view that takes over a reply stays in step. -/
theorem View.InStep.show_ok {s : Session} {r : QueryReply} (v : View) (hshows : Shows r s) :
    (v.show (.ok ({ v.panel with session := some s }, r))).InStep where
  choices_eq := hshows.choices_eq
  history_eq := hshows.history_queries

/-- Looking at a result changes neither the results nor the history. -/
theorem session_detail (p : QueryPanel) (selection : Json) :
    (p.detail selection).1 = p ∨ ∃ i, (p.detail selection).1
      = { p with session := p.session.map fun s => (s.select i).1 } := by
  cases hindex : choiceIndex? selection with
  | none =>
    rw [detail_of_none hindex]
    exact .inl rfl
  | some i =>
    refine .inr ⟨i, ?_⟩
    simp only [detail, hindex]
    cases hs : p.session with
    | none => rfl
    | some s =>
      have hensured : p.ensured = s := by rw [ensured, hs, Option.getD_some]
      rw [hensured]
      rfl

/-- No action lets the drop-downs and the session get out of step. -/
theorem View.InStep.act (h : v.InStep) (a : Action) : (v.act a).InStep := by
  cases a with
  | run now json query =>
    cases hrun : v.panel.run now json query with
    | error f => simpa only [View.act, hrun, View.show] using h
    | ok reply =>
      obtain ⟨s, o, -, hp, hshows, -⟩ := exists_shows_of_run hrun
      obtain ⟨p, r⟩ := reply
      cases hp
      simpa only [View.act, hrun] using View.InStep.show_ok v hshows
  | rerun now json selection =>
    cases hrerun : v.panel.rerun now json selection with
    | error f => simpa only [View.act, hrerun, View.show] using h
    | ok reply =>
      obtain ⟨s, hp, hshows, -⟩ := exists_shows_of_rerun hrerun
      obtain ⟨p, r⟩ := reply
      cases hp
      simpa only [View.act, hrerun] using View.InStep.show_ok v hshows
  | detail selection =>
    simp only [View.act]
    obtain hsame | ⟨i, hselect⟩ := session_detail v.panel selection
    · rw [hsame]
      exact h
    · rw [hselect]
      cases hs : v.panel.session with
      | none =>
        -- a look without a session leaves none behind
        exact ⟨by rw [h.choices_eq, hs]; rfl, by rw [h.history_eq, hs]; rfl⟩
      | some s =>
        obtain ⟨hresults, hhistory⟩ := Session.select_results s i
        refine ⟨?_, ?_⟩
        · rw [h.choices_eq, hs]
          exact congrArg (fun ms => ms.zipIdx.map resultChoice) hresults.symm
        · rw [h.history_eq, hs]
          exact congrArg History.queries hhistory.symm
  | clear =>
    refine ⟨?_, rfl⟩
    rw [View.act, h.choices_eq, ← choicesOf_ensured]
    rfl

/-- The drop-downs and the session are in step after all actions. -/
theorem View.inStep_after (settings : Settings) (as : List Action) : (View.after settings as).InStep := by
  -- the view in which the actions begin varies along the run
  have hrun : ∀ v : View, v.InStep → (as.foldl View.act v).InStep := by
    induction as with
    | nil => exact fun v h => h
    | cons a as ih => exact fun v h => ih _ (h.act a)
  exact hrun _ ⟨rfl, rfl⟩

end InStep

/-! ## The panel after any actions -/

/-- After any actions on a panel that starts without a session, the drop-downs hold one choice for every
stored result and the queries of the history; a query that ends fills them so, with no choice if it
failed; a current choice selects its own result and shows its value; a text with the number of no result
selects none, and a text with no number in front changes nothing. -/
theorem picks_own_result (settings : Settings) (as : List Action) {v : View}
    (hv : v = View.after settings as) :
    v.InStep ∧
    (∀ now json query p r, v.panel.run now json query = .ok (p, r) →
      ∃ s o, v.panel.ensured.execute now json query = .ok (s, o) ∧ p.session = some s ∧ Shows r s ∧
        (o.status ≠ .ok → r.choices.items = [])) ∧
    (∀ now json selection p r, v.panel.rerun now json selection = .ok (p, r) →
      ∃ s, p.session = some s ∧ Shows r s ∧
        (selection.getD "" ≠ "" → v.panel.run now json selection = .ok (p, r))) ∧
    (∀ i c, i < indexLimit → v.choices[i]? = some c →
      ∃ s m, v.panel.session = some s ∧ s.results[i]? = some m ∧
        v.panel.detail (.str c) = ({ v.panel with session := some { s with selected := some i } },
          m.value.render (.ofWidth v.panel.settings.defaultIndent))) ∧
    (∀ selection i, Whole.read (String.ofList (front selection)) = .ok i →
      (i < 0 ∨ v.panel.ensured.results.length ≤ i) →
        v.panel.detail (.str selection) =
          ({ v.panel with session := v.panel.session.map fun s => { s with selected := none } }, "")) ∧
    ∀ selection f, Whole.read (String.ofList (front selection)) = .error f →
      v.panel.detail (.str selection) = (v.panel, "") := by
  -- only the choices depend on the actions before; a text is looked up in the stored results as it is
  have hstep : v.InStep := hv ▸ View.inStep_after settings as
  refine ⟨hstep, ?_, ?_, ?_, ?_, ?_⟩
  · intro now json query p r hrun
    obtain ⟨s, o, hexecute, rfl, hshows, hfailed⟩ := exists_shows_of_run hrun
    exact ⟨s, o, hexecute, rfl, hshows, hfailed⟩
  · intro now json selection p r hrerun
    obtain ⟨s, rfl, hshows, hcases⟩ := exists_shows_of_rerun hrerun
    refine ⟨s, rfl, hshows, fun hsome => ?_⟩
    obtain ⟨hnone, -⟩ | ⟨-, hrun⟩ := hcases
    · exact absurd hnone hsome
    · exact hrun
  · intro i c hi hc
    rw [hstep.choices_eq] at hc
    cases hs : v.panel.session with
    | none => rw [hs] at hc; cases hc
    | some s =>
      rw [hs] at hc
      obtain ⟨m, hm, rfl⟩ := getElem?_choicesOf hc
      exact ⟨s, m, rfl, hm, detail_of_result hs hm (choiceIndex?_resultChoice m hi)⟩
  · intro selection i hread hi
    have hindex : choiceIndex? (.str selection) = some i := by rw [choiceIndex?_str, hread]; rfl
    exact detail_of_outside hindex hi
  · intro selection f hread
    have hindex : choiceIndex? (.str selection) = none := by rw [choiceIndex?_str, hread]; rfl
    exact detail_of_none hindex

/-- A query whose result has a colon in its path, and the look at a result that is not there. -/
def colonRun : List Action :=
  [.run (.whole 0) (some "\x7b\"1:0\": [7]\x7d") (some "$.1:0[*]"), .detail (.str "5: $")]

/-- The choice with a colon in its path shows its own value. -/
theorem picks_own_result_colon :
    let v := View.after (.ofVariables []) colonRun
    v.choices = ["0: $.1:0[0] (number)"] ∧ 0 < indexLimit ∧
      v.panel.detail (.str "0: $.1:0[0] (number)") = ({ v.panel with
        session := v.panel.session.map fun s => { s with selected := some 0 } }, "7") := by
  intro v
  have hpath : parsePath "$.1:0[*]" = .ok ⟨[.field "1:0", .wildcard]⟩ := by cbv
  have hparse : Json.parse? (some "\x7b\"1:0\": [7]\x7d") = .ok (.obj [("1:0", .arr [.int 7])]) :=
    Json.parse_render_of_finite (v := .obj [("1:0", .arr [.int 7])]) (by decide) (by decide) none
  have hfound := @Session.outcome_of_found (some "\x7b\"1:0\": [7]\x7d") (some "$.1:0[*]")
    (.obj [("1:0", .arr [.int 7])]) ⟨"$.1:0[0]", .int 7⟩ [] rfl rfl hparse
    (evaluate_of_parsePath hpath)
  have hsession : ∃ h, v.panel = ⟨.ofVariables [], some ⟨h, [⟨"$.1:0[0]", .int 7⟩], none⟩⟩ ∧
      v.choices = ["0: $.1:0[0] (number)"] := by
    simp only [v, View.after, colonRun, List.foldl_cons, List.foldl_nil, View.act, run, ensured,
      Session.execute, hfound]
    exact ⟨_, rfl, rfl⟩
  have hzero : 0 < indexLimit := lt_indexLimit_iff.mpr (by decide)
  obtain ⟨h, hpanel, hchoices⟩ := hsession
  obtain ⟨-, -, -, hpick, -⟩ := picks_own_result (.ofVariables []) colonRun (v := v) rfl
  obtain ⟨s, m, hs, hm, hdetail⟩ := hpick 0 _ hzero (congrArg (·[0]?) hchoices)
  refine ⟨hchoices, hzero, hdetail.trans ?_⟩
  rw [hpanel] at hs ⊢
  cases hs
  cases hm
  rfl

end DocDesk.Panel.QueryPanel
