import DocDesk.Sample
import DocDesk.Text.Split

/-!
# Query guide

The page that explains queries: a table of the forms and a table of examples.
-/

namespace DocDesk.Guide

/-- A row of a table: a query text and what it means. -/
def tableRow (entry : String × String) : String := "| `" ++ entry.1 ++ "` | " ++ entry.2 ++ " |"

/-- The guide page. -/
def page : String :=
  Text.joined "\n"
    (["| Syntax | Meaning |", "|---|---|"] ++ Sample.queryForms.map tableRow
      ++ ["", "**Examples (sample data)**", "", "| Query | Returns |", "|---|---|"]
      ++ Sample.queryExamples.map tableRow)

end DocDesk.Guide
