import DocDesk.Query.History
import Mathlib.Data.List.Induction

/-!
# Runs of a history

A history after any sequence of records and clearings, told from that sequence alone: it holds the
newest of the records since the last clearing, as many as its limit allows.

Main statements: `entries_run` and `run_conforms`.
-/

namespace DocDesk.Query.History

/-! ## Changes -/

/-- What is done with a history. -/
inductive Change where
  | record (e : HistoryEntry)
  | clear

/-- The entry that a change records; a clearing records none. -/
def Change.entry? : Change → Option HistoryEntry
  | .record e => some e
  | .clear => none

/-- The history after a change. -/
def change (h : History) : Change → History
  | .record e => h.record e
  | .clear => h.clear

/-- The history after changes one after the other. -/
def run (h : History) (cs : List Change) : History := cs.foldl change h

/-- The records since the last clearing, newest first. -/
def logged (cs : List Change) : List HistoryEntry :=
  (cs.reverse.takeWhile fun c => c.entry?.isSome).filterMap Change.entry?

/-- With a limit there is a history, and it is empty. -/
theorem exists_new? {limit : Int} (hlimit : 1 ≤ limit) :
    ∃ h, new? limit = some h ∧ h.entries = [] ∧ h.limit = limit.toNat := by
  have hpos : 0 < limit.toNat := by omega
  exact ⟨⟨limit.toNat, [], hpos, Nat.zero_le _⟩, dif_pos hpos, rfl, rfl⟩

section Runs

variable {h : History}

/-- Changes are made one after the other. -/
theorem run_append (h : History) (cs ds : List Change) : h.run (cs ++ ds) = (h.run cs).run ds :=
  List.foldl_append

/-- The last change is made on what those before it left. -/
theorem run_concat (h : History) (cs : List Change) (c : Change) :
    h.run (cs ++ [c]) = (h.run cs).change c :=
  h.run_append cs [c]

/-- A change does not move the limit. -/
@[simp] theorem limit_change (h : History) (c : Change) : (h.change c).limit = h.limit := by
  cases c <;> rfl

/-- Nor do changes. -/
@[simp] theorem limit_run (h : History) (cs : List Change) : (h.run cs).limit = h.limit := by
  induction cs using List.reverseRecOn with
  | nil => rfl
  | append_singleton cs c ih => rw [run_concat, limit_change, ih]

@[simp] theorem logged_nil : logged [] = [] := rfl

@[simp] theorem logged_concat_clear (cs : List Change) : logged (cs ++ [.clear]) = [] := by
  simp [logged, Change.entry?]

@[simp] theorem logged_concat_record (cs : List Change) (e : HistoryEntry) :
    logged (cs ++ [.record e]) = e :: logged cs := by
  simp [logged, Change.entry?]

/-- Older records are still there exactly if there was no clearing since. -/
theorem logged_append (older newer : List Change) :
    logged (older ++ newer) = logged newer ∨
      logged (older ++ newer) = logged newer ++ logged older ∧
        (logged newer).length = (newer.filterMap Change.entry?).length := by
  simp only [logged, List.reverse_append, List.takeWhile_append]
  split
  · next hall =>
    have hnewer := (List.takeWhile_prefix (fun c : Change => c.entry?.isSome)
      (l := newer.reverse)).eq_of_length hall
    rw [hnewer]
    refine .inr ⟨List.filterMap_append, ?_⟩
    rw [List.filterMap_reverse, List.length_reverse]
  · exact .inl rfl

/-- After a run, an empty history holds the newest records since the last clearing, up to its limit. -/
theorem entries_run (hempty : h.entries = []) (cs : List Change) :
    (h.run cs).entries = (logged cs).take h.limit := by
  induction cs using List.reverseRecOn with
  | nil => rw [logged_nil, List.take_nil, ← hempty]; rfl
  | append_singleton cs c ih =>
    rw [run_concat]
    cases c with
    | clear => rw [logged_concat_clear, List.take_nil]; rfl
    | record e =>
      -- cutting the older entries twice is cutting them once
      obtain ⟨n, hn⟩ : ∃ n, h.limit = n + 1 := ⟨h.limit - 1, by have := h.limit_pos; omega⟩
      rw [change, entries_record, limit_run, ih, logged_concat_record, hn, List.take_succ_cons,
        List.take_succ_cons, List.take_take, Nat.min_eq_left (Nat.le_succ n)]

/-- Nothing is left of what came before as many records as the limit. -/
theorem entries_run_append (hempty : h.entries = []) {newer : List Change}
    (hfull : h.limit ≤ (newer.filterMap Change.entry?).length) (older : List Change) :
    (h.run (older ++ newer)).entries = (h.run newer).entries := by
  rw [entries_run hempty, entries_run hempty]
  rcases logged_append older newer with hsame | ⟨hboth, hlength⟩
  · rw [hsame]
  · rw [hboth, List.take_append_of_le_length (hlength ▸ hfull)]

end Runs

/-- For every limit of at least one and every sequence of records and clearings: the entries are the
newest records since the last clearing up to the limit, the number of entries, the newest one, a loop
and the queries are those of this list, and records as many as the limit leave nothing of what came
before them. -/
theorem run_conforms {limit : Int} (hlimit : 1 ≤ limit) :
    ∃ h, new? limit = some h ∧ ∀ cs : List Change, ∀ s, s = h.run cs →
      s.entries = (logged cs).take limit.toNat ∧
      s.size = min limit.toNat (logged cs).length ∧ (s.size : Int) ≤ limit ∧
      s.latest? = (logged cs).head? ∧
      (∀ (m : Type → Type) [Monad m] (β : Type) (init : β) (step : HistoryEntry → β → m (ForInStep β)),
        forIn s init step = forIn ((logged cs).take limit.toNat) init step) ∧
      s.queries = ((logged cs).take limit.toNat).map HistoryEntry.query ∧
      ∀ older, limit.toNat ≤ (cs.filterMap Change.entry?).length →
        (h.run (older ++ cs)).entries = s.entries := by
  obtain ⟨h, hnew, hempty, hlim⟩ := exists_new? hlimit
  have hpos := h.limit_pos
  rw [hlim] at hpos
  refine ⟨h, hnew, ?_⟩
  rintro cs s rfl
  have hentries : (h.run cs).entries = (logged cs).take limit.toNat := hlim ▸ entries_run hempty cs
  have hsize : (h.run cs).size = min limit.toNat (logged cs).length := by
    rw [size, hentries, List.length_take]
  refine ⟨hentries, hsize, by omega, ?_, ?_, ?_, ?_⟩
  · rw [latest?, hentries, List.head?_take, if_neg (Nat.ne_of_gt hpos)]
  · intro m _ β init step
    rw [forIn_eq, hentries]
  · rw [queries, hentries]
  · intro older hfull
    exact entries_run_append hempty (hlim ▸ hfull) older

/-- Three records with a clearing between the first two. -/
def shortLog : List Change :=
  [.record ⟨"$.a", .whole 1, 3⟩, .clear, .record ⟨"$.b", .whole 2, 1⟩, .record ⟨"$.b", .whole 2, 1⟩]

/-- A history of limit one keeps the last record alone; one of limit two keeps the repeated query twice. -/
theorem run_conforms_shortLog : (1 : Int) ≤ 1 ∧ (1 : Int) ≤ 2 ∧
    (∃ h, new? 1 = some h ∧ (h.run shortLog).entries = [⟨"$.b", .whole 2, 1⟩] ∧
      (h.run (shortLog ++ [.record ⟨"$.c", .whole 4, 0⟩])).entries = [⟨"$.c", .whole 4, 0⟩]) ∧
    ∃ h, new? 2 = some h ∧ (h.run shortLog).queries = ["$.b", "$.b"] ∧
      (h.run shortLog).latest? = some ⟨"$.b", .whole 2, 1⟩ := by
  refine ⟨by decide, by decide, ?_, ?_⟩
  · obtain ⟨h, hnew, hrun⟩ := @run_conforms 1 (by decide)
    obtain ⟨hentries, -⟩ := hrun shortLog _ rfl
    obtain ⟨hlast, -, -, -, -, -, houtlived⟩ := hrun [.record ⟨"$.c", .whole 4, 0⟩] _ rfl
    exact ⟨h, hnew, hentries.trans rfl, (houtlived shortLog (by decide)).trans (hlast.trans rfl)⟩
  · obtain ⟨h, hnew, hrun⟩ := @run_conforms 2 (by decide)
    obtain ⟨-, -, -, hlatest, -, hqueries, -⟩ := hrun shortLog _ rfl
    exact ⟨h, hnew, hqueries.trans rfl, hlatest.trans rfl⟩

end DocDesk.Query.History
