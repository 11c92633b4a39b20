/-!
# How deep a recursive pass gets

The passes over a document call themselves, and only so many calls may be open at a time.  Every limit on
the nesting of documents in this library is what `levels` leaves: the calls that are open around the pass
come off first, and a pass that opens several calls a level gets so many times less deep.  What is open
around a pass depends on who calls; the numbers given for it are those of a caller that does little else.
-/

namespace DocDesk.Nesting

/-- How many calls may be open at a time. -/
def callLimit : Nat := 1000

/-- How many levels a pass gets down that opens so many calls a level, with so many open around it. -/
def levels (outer perLevel : Nat) : Nat := (callLimit - outer) / perLevel

/-- A pass got to the limit of open calls. -/
structure Exceeded where
deriving DecidableEq, Repr

/-- The wording of the fault. -/
def Exceeded.message (_ : Exceeded) : String := "maximum recursion depth exceeded"

end DocDesk.Nesting
