import DocDesk.Clock

/-!
# Query history

The latest queries with their numbers of results, newest first, at most a fixed number of them.

Main statements: `entries_record` (what recording does to the list) and `length_entries_le` (the limit
holds by construction).
-/

namespace DocDesk.Query

/-- A query that was run, with the number of its results. -/
structure HistoryEntry where
  query : String
  timestamp : Timestamp
  count : Int
deriving DecidableEq

/-- A history: at most `limit` entries, newest first. -/
structure History where
  limit : Nat
  entries : List HistoryEntry
  limit_pos : 0 < limit
  length_entries_le : entries.length ≤ limit

namespace History

/-- The only reason to refuse a limit. -/
def limitMessage : String := "History limit must be at least 1."

/-- The number of entries that a history keeps unless told otherwise. -/
def defaultLimit : Int := 10

/-- An empty history with a limit; a limit below one is refused. -/
def new? (limit : Int) : Option History :=
  if h : 0 < limit.toNat then some ⟨limit.toNat, [], h, Nat.zero_le _⟩ else none

/-- Puts an entry in front and drops what is then beyond the limit. -/
def record (h : History) (e : HistoryEntry) : History where
  limit := h.limit
  entries := e :: h.entries.take (h.limit - 1)
  limit_pos := h.limit_pos
  length_entries_le := by
    have := h.limit_pos
    simp only [List.length_cons, List.length_take]
    omega

/-- Drops all entries. -/
def clear (h : History) : History := { h with entries := [], length_entries_le := Nat.zero_le _ }

/-- The newest entry. -/
def latest? (h : History) : Option HistoryEntry := h.entries.head?

/-- The number of entries. -/
def size (h : History) : Nat := h.entries.length

/-- A loop over a history visits its entries, newest first. -/
instance {m : Type → Type} [Monad m] : ForIn m History HistoryEntry where
  forIn h := forIn h.entries

/-- The queries, newest first. -/
def queries (h : History) : List String := h.entries.map HistoryEntry.query

/-- The entries as rows of a table: query, number of results, time of day. -/
def rows (h : History) : Except Timestamp.Fault (List (String × Int × String)) :=
  h.entries.mapM fun e => e.timestamp.displayTime.map fun t => (e.query, e.count, t)

/-- Going through a history goes through its entries. -/
theorem forIn_eq {m : Type → Type} [Monad m] {β : Type} (h : History) (init : β)
    (step : HistoryEntry → β → m (ForInStep β)) : forIn h init step = forIn h.entries init step := rfl

/-- A new entry goes to the front, and the last one may fall out. -/
theorem entries_record (h : History) (e : HistoryEntry) :
    (h.record e).entries = (e :: h.entries).take h.limit := by
  have := h.limit_pos
  obtain ⟨n, hn⟩ : ∃ n, h.limit = n + 1 := ⟨h.limit - 1, by omega⟩
  simp [record, hn]

/-- There is no history with a limit below one. -/
theorem new?_eq_none_iff (limit : Int) : new? limit = none ↔ limit < 1 := by
  unfold new?
  split <;> simp <;> omega

end History

end DocDesk.Query
