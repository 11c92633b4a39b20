import DocDesk.Number.Whole
import DocDesk.Text.LetterCase

/-!
# Settings

The settings that a set of variables gives.  A variable that is missing, or that does not hold what
its setting needs, leaves the setting at its default.

Main statements: `positive_pos` and `indent_mem`.
-/

namespace DocDesk

/-- The settings of the desk. -/
structure Settings where
  historyLimit : Int
  defaultIndent : Int
  logLevel : String
  logFile : Option String
  serverName : String
  serverPort : Int
deriving DecidableEq, Repr

namespace Settings

/-- Variables with their values. -/
abbrev Variables := List (String × String)

/-- The indentations that may be set. -/
def allowedIndents : List Int := [2, 4, 8]

/-- The value of a variable without the blanks around it; nothing if it is missing. -/
def lookup? (vars : Variables) (name : String) : Option String :=
  (vars.lookup name).map Text.stripped

/-- The positive number that a variable holds, or a default. -/
def positive (vars : Variables) (name : String) (default : Int) : Int :=
  match lookup? vars name with
  | none => default
  | some s =>
    match Whole.read s with
    | .ok n => if 0 < n then n else default
    | .error _ => default

/-- The text that a variable holds, if it holds any. -/
def nonempty? (vars : Variables) (name : String) : Option String :=
  (lookup? vars name).filter (· ≠ "")

/-- The allowed indentation that a variable holds, or a default. -/
def indent (vars : Variables) (default : Int) : Int :=
  let n := positive vars "DEFAULT_INDENT" default
  if n ∈ allowedIndents then n else default

/-- The settings that variables give. -/
def ofVariables (vars : Variables) : Settings where
  historyLimit := positive vars "HISTORY_LIMIT" 10
  defaultIndent := indent vars 2
  logLevel := Text.upper ((nonempty? vars "LOG_LEVEL").getD "INFO")
  logFile := nonempty? vars "LOG_FILE"
  serverName := (nonempty? vars "SERVER_NAME").getD "127.0.0.1"
  serverPort := positive vars "SERVER_PORT" 7860

/-- A setting that has to be positive is, whatever the variable holds. -/
theorem positive_pos {vars : Variables} {name : String} {default : Int} (h : 0 < default) :
    0 < positive vars name default := by
  unfold positive
  split
  · exact h
  · split
    · split <;> assumption
    · exact h

/-- An indentation is one of those allowed, whatever the variable holds. -/
theorem indent_mem (vars : Variables) : indent vars 2 ∈ allowedIndents := by
  unfold indent
  simp only
  split
  · assumption
  · decide

end Settings

end DocDesk
