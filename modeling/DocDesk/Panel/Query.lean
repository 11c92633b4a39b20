import DocDesk.File
import DocDesk.Json.Inspect
import DocDesk.Query.Session
import DocDesk.Query.Suggestion
import DocDesk.Sample
import DocDesk.Settings

/-!
# The query panel

The actions of the query panel.  They share one session, which is made by the first action that needs
to keep it, with the history limit of the settings.  Choices of a drop-down are replaced as a whole.

Main statements: `resultChoices_length` and `run_history`.
-/

namespace DocDesk.Panel

open Query

/-- New choices of a drop-down; whether it can be used is left as it is if nothing is said. -/
structure Choices where
  items : List String
  usable : Option Bool
deriving DecidableEq, Repr

/-- The panel: its settings and its session, once there is one. -/
structure QueryPanel where
  settings : Settings
  session : Option Session

namespace QueryPanel

/-- An empty history of the length that the settings ask for. -/
def emptyHistory (settings : Settings) : History :=
  (History.new? settings.historyLimit).getD ⟨1, [], by decide, by decide⟩

/-- The session, made where there is none. -/
def ensured (p : QueryPanel) : Session := p.session.getD (.new (emptyHistory p.settings))

/-- The choices of the history drop-down. -/
def historyChoices (s : Session) : Choices :=
  let items := s.history.queries
  ⟨items, some (!items.isEmpty)⟩

/-- The choice that stands for a result: its index, its path and its type. -/
def resultChoice (entry : Match × Nat) : String :=
  String.ofList (natText entry.2) ++ ": " ++ entry.1.path ++ " (" ++ entry.1.type ++ ")"

/-- The choices of the result drop-down. -/
def resultChoices (s : Session) : Choices :=
  let items := s.results.zipIdx.map resultChoice
  ⟨items, some (!items.isEmpty)⟩

/-! ## Queries -/

/-- What a query shows: its results if it succeeded, a message, the rows of the history and the
choices of both drop-downs. -/
structure QueryReply where
  results : Option (List Match)
  message : String
  rows : List (String × Int)
  history : Choices
  choices : Choices

/-- What the panel shows of a session. -/
def reply (results : Option (List Match)) (message : String) (s : Session) : QueryReply :=
  ⟨results, message, s.history.entries.map fun e => (e.query, e.count), historyChoices s,
    resultChoices s⟩

/-- Runs a query. -/
def run (p : QueryPanel) (now : Timestamp) (json query : Option String) :
    Except Fault (QueryPanel × QueryReply) := do
  let (s, outcome) ← p.ensured.execute now json query
  let results := if outcome.status = .ok then some outcome.results else none
  .ok ({ p with session := some s }, reply results outcome.message s)

/-- Runs a query of the history again; without one the panel asks for it. -/
def rerun (p : QueryPanel) (now : Timestamp) (json selection : Option String) :
    Except Fault (QueryPanel × QueryReply) :=
  if selection.getD "" = "" then
    let s := p.ensured
    .ok ({ p with session := some s }, reply none "Select a query from the history." s)
  else p.run now json selection

/-- Drops the history. -/
def clear (p : QueryPanel) : QueryPanel × QueryReply :=
  let s := p.ensured.clearHistory
  ({ p with session := some s }, reply none "" s)

/-- The index at the front of a choice, up to its first colon. -/
def choiceIndex? (selection : Json) : Option Int :=
  if selection.isFalsy then none
  else
    let front := selection.plain.toList.takeWhile (· ≠ ':')
    match Whole.read (String.ofList front) with
    | .ok i => some i
    | .error _ => none

/-- The text of the result that a choice picks; empty if it picks none.  A panel without a session
keeps none. -/
def detail (p : QueryPanel) (selection : Json) : QueryPanel × String :=
  match choiceIndex? selection with
  | none => (p, "")
  | some i =>
    let (s, found) := p.ensured.select i
    ({ p with session := p.session.map fun _ => s },
      (found.map fun m => m.value.render (.ofWidth p.settings.defaultIndent)).getD "")

/-! ## Documents -/

/-- The example queries for a document text; none if it cannot be read. -/
def suggestionsFor (json : Option String) : Choices :=
  if Session.isBlankInput json then ⟨[], none⟩
  else match Json.parse? json with
    | .ok v => ⟨suggest v defaultLimit, none⟩
    | .error _ => ⟨[], none⟩

/-- A document text that was loaded, with a message and example queries. -/
structure LoadReply where
  text : Option String
  message : String
  suggestions : Option Choices

/-- Loads the sample document. -/
def loadSample (p : QueryPanel) : LoadReply :=
  let text := Sample.document.render (.ofWidth p.settings.defaultIndent)
  ⟨some text, "Sample bookstore data loaded.", some (suggestionsFor (some text))⟩

/-- Loads an uploaded document. -/
def loadFile (upload : File.Upload) : LoadReply :=
  let refuse (message : String) : LoadReply := ⟨none, "Error loading file: " ++ message, none⟩
  match upload with
  | .nothing => ⟨none, "No file uploaded.", none⟩
  | _ =>
    match upload.text with
    | .error f => refuse f.message
    | .ok text =>
      match Json.parse text with
      | .error e => refuse e.message
      | .ok _ => ⟨some text, "File loaded.", some (suggestionsFor (some text))⟩

/-- There is a choice for each result. -/
theorem resultChoices_length (s : Session) : (resultChoices s).items.length = s.results.length := by
  simp [resultChoices]

/-- The history drop-down lists the queries of the rows. -/
theorem run_history (results : Option (List Match)) (message : String) (s : Session) :
    (reply results message s).history.items = (reply results message s).rows.map Prod.fst := by
  simp [reply, historyChoices, History.queries]

end QueryPanel

end DocDesk.Panel
