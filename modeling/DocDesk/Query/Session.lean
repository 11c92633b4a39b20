import DocDesk.Json.Reader
import DocDesk.Query.Evaluation
import DocDesk.Query.History

/-!
# Query sessions

A session holds the results of its last query, the result selected among them, and the history of
the queries that found something.  Every query ends in one of four ways.

Main statements: `execute_results` and `select_results`.
-/

namespace DocDesk.Query

/-- How a query ended. -/
inductive Status where
  | ok
  | emptyInput
  | invalidJson
  | noResults
deriving DecidableEq, Repr

/-- The word for a status. -/
def Status.text : Status → String
  | .ok => "ok"
  | .emptyInput => "empty_input"
  | .invalidJson => "invalid_json"
  | .noResults => "no_results"

/-- The end of a query: its status, what it found and what is told about it. -/
structure Outcome where
  status : Status
  results : List Match
  message : String

/-- A session; `selected` is an index into `results`. -/
structure Session where
  history : History
  results : List Match
  selected : Option Nat

namespace Session

/-- A session without results. -/
def new (history : History) : Session := ⟨history, [], none⟩

/-- An input that is missing or holds nothing but blanks. -/
def isBlankInput (s : Option String) : Bool := Text.isBlankText (s.getD "")

/-- How a query on a document text ends, apart from any session. -/
def outcome (json query : Option String) : Except Fault Outcome :=
  if isBlankInput json || isBlankInput query then
    .ok ⟨.emptyInput, [], "Please enter both JSON data and a JSONPath query."⟩
  else match Json.parse? json with
    | .error e => .ok ⟨.invalidJson, [], "Invalid JSON: " ++ e.message⟩
    | .ok doc => do
      match ← evaluate doc (Text.stripped (query.getD "")) with
      | [] => .ok ⟨.noResults, [], "No results found for this query."⟩
      | found =>
        .ok ⟨.ok, found, "Found " ++ String.ofList (natText found.length) ++ " result(s)."⟩

/-- Runs a query on a document text at a time.  A query that found something enters the history. -/
def execute (s : Session) (now : Timestamp) (json query : Option String) :
    Except Fault (Session × Outcome) := do
  let o ← outcome json query
  let history :=
    if o.status = .ok then s.history.record ⟨Text.stripped (query.getD ""), now, o.results.length⟩
    else s.history
  .ok (⟨history, o.results, none⟩, o)

/-- Selects a result by its index; an index out of range selects none. -/
def select (s : Session) (index : Int) : Session × Option Match :=
  if 0 ≤ index then
    match s.results[index.toNat]? with
    | some m => ({ s with selected := some index.toNat }, some m)
    | none => ({ s with selected := none }, none)
  else ({ s with selected := none }, none)

/-- Drops the history. -/
def clearHistory (s : Session) : Session := { s with history := s.history.clear }

/-- After a query the stored results are those of its outcome and none is selected. -/
theorem execute_results {s s' : Session} {now : Timestamp} {json query : Option String} {o : Outcome}
    (h : s.execute now json query = .ok (s', o)) : s'.results = o.results ∧ s'.selected = none := by
  unfold execute at h
  cases ho : outcome json query with
  | error f => simp [ho, bind, Except.bind] at h
  | ok o' =>
    simp only [ho, bind, Except.bind, Except.ok.injEq, Prod.mk.injEq] at h
    obtain ⟨rfl, rfl⟩ := h
    exact ⟨rfl, rfl⟩

/-- Selecting leaves results and history as they are. -/
theorem select_results (s : Session) (index : Int) :
    (s.select index).1.results = s.results ∧ (s.select index).1.history = s.history := by
  unfold select
  split
  · split <;> simp
  · simp

end Session

end DocDesk.Query
