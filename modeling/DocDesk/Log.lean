import DocDesk.Settings
import DocDesk.Text.Split

/-!
# Log lines

Records become lines `LEVEL|name|message` if their level reaches the level that was set.  Records
come from the desk itself, with a named level, or from the libraries around it, with a numbered one.

Main definition: `run`.  Main statement: `levelNumber?_name`.
-/

namespace DocDesk.Log

/-- The named levels with their numbers. -/
def levels : List (String × Int) :=
  [("TRACE", 5), ("DEBUG", 10), ("INFO", 20), ("SUCCESS", 25), ("WARNING", 30), ("ERROR", 40),
    ("CRITICAL", 50)]

/-- The number of a named level. -/
def levelNumber? (name : String) : Option Int := levels.lookup name

/-- The numbered levels of library records that have a name of their own. -/
def libraryLevels : List (Int × String) :=
  [(10, "DEBUG"), (20, "INFO"), (30, "WARNING"), (40, "ERROR"), (50, "CRITICAL")]

/-- The name of a numbered level. -/
def libraryLevelName (level : Int) : String :=
  (libraryLevels.lookup level).getD ("Level " ++ String.ofList (intText level))

/-- A record to be logged. -/
inductive Record where
  /-- A record of the desk under a name, or under the desk's own name. -/
  | own (name : Option String) (level message : String)
  /-- A record of a library's logger. -/
  | library (logger : String) (level : Int) (message : String)
deriving DecidableEq, Repr

/-- A level that does not exist. -/
structure UnknownLevel where
  name : String
deriving DecidableEq, Repr

/-- The wording of the refusal of a level. -/
def UnknownLevel.message (e : UnknownLevel) : String := "Level '" ++ e.name ++ "' does not exist"

/-- The name that records of the desk bear unless they bear another. -/
def deskName : String := "json-toolbox"

/-- Library loggers whose records below a warning are dropped. -/
def isQuietLogger (logger : String) : Bool :=
  logger = "httpx" || (Text.after? "httpx.".toList logger.toList).isSome

/-- The parts of a message at its line breaks. -/
def messageLines : List Char → List (List Char)
  | [] => [[]]
  | '\r' :: '\n' :: r => [] :: messageLines r
  | c :: r =>
    if c = '\n' ∨ c = '\r' then [] :: messageLines r
    else match messageLines r with
      | [] => [[c]]
      | part :: parts => (c :: part) :: parts

/-- A level name filled with blanks to five columns. -/
def paddedLevel (name : String) : List Char :=
  name.toList ++ List.replicate (5 - name.toList.length) ' '

/-- The lines of a record whose level passes. -/
def render (level name message : String) : List String :=
  (messageLines (paddedLevel level ++ '|' :: name.toList ++ '|' :: message.toList)).map String.ofList

/-- The lines that a record leaves where records below `threshold` are dropped. -/
def lines (threshold : Int) : Record → Except UnknownLevel (List String)
  | .own name level message =>
    match levelNumber? level with
    | none => .error ⟨level⟩
    | some n => .ok (if n < threshold then [] else render level (name.getD deskName) message)
  | .library logger level message =>
    .ok (if level ≤ 0 || (isQuietLogger logger && level < 30) || level < threshold then []
      else render (libraryLevelName level) (if logger = "" then "root" else logger) message)

/-- The lines of a run: the set-up tells its level and file, then come the records.  A level or a
file that is not given is the one of the settings. -/
def run (settings : Settings) (level file : Option String) (records : List Record) :
    Except UnknownLevel (List String) := do
  let name := Text.upper ((level.filter (· ≠ "")).getD settings.logLevel)
  match levelNumber? name with
  | none => .error ⟨name⟩
  | some threshold =>
    let target := (file <|> settings.logFile).getD "-"
    let start := Record.own (some "json_toolbox.logging_setup") "INFO"
      ("Logging initialized: level=" ++ name ++ ", file=" ++ target)
    let parts ← (start :: records).mapM (lines threshold)
    .ok parts.flatten

/-- Every level has its number. -/
theorem levelNumber?_name {p : String × Int} (h : p ∈ levels) : levelNumber? p.1 = some p.2 := by
  simp only [levels, List.mem_cons, List.not_mem_nil, or_false] at h
  rcases h with rfl | rfl | rfl | rfl | rfl | rfl | rfl <;> rfl

end DocDesk.Log
