import DocDesk.Json.Inspect
import DocDesk.Text.Split

/-!
# Pointers into a document

A pointer is the list of steps from the root of a document to one of its values.  Its text has a slash
before every step; a tilde and a slash inside a step are escaped.

Main statements: `unescape_escape` and `read_chars` (a pointer text tells its steps).
-/

namespace DocDesk.Schema

/-- One step down: to a member or to an item. -/
inductive Step where
  | name (s : String)
  | index (n : Nat)
deriving DecidableEq, Repr

/-- The text of a step, before escaping. -/
def Step.chars : Step → List Char
  | .name s => s.toList
  | .index n => natText n

namespace Pointer

/-- A character of an escaped step. -/
def escapeChar (c : Char) : List Char :=
  if c = '~' then ['~', '0'] else if c = '/' then ['~', '1'] else [c]

/-- The escaped text of a step. -/
def escape (token : List Char) : List Char := token.flatMap escapeChar

/-- Reads the escapes of a step. -/
def unescape : List Char → List Char
  | '~' :: '0' :: cs => '~' :: unescape cs
  | '~' :: '1' :: cs => '/' :: unescape cs
  | c :: cs => c :: unescape cs
  | [] => []

/-- The pointer text of the texts of steps. -/
def chars (tokens : List (List Char)) : List Char := tokens.flatMap fun t => '/' :: escape t

/-- The texts of the steps of a pointer text; the empty text has none. -/
def read : List Char → List (List Char)
  | [] => []
  | _ :: cs => (Text.splitAt '/' cs).map unescape

/-- The text of a pointer. -/
def text (steps : List Step) : String := String.ofList (chars (steps.map Step.chars))

/-- The pointer text of steps that may be any values. -/
def ofValues (steps : List Json) : String := String.ofList (chars (steps.map (·.plain.toList)))

/-! ## Reading back -/

/-- A token that is escaped can be told again. -/
theorem unescape_escape (token : List Char) : unescape (escape token) = token := by
  induction token with
  | nil => rfl
  | cons c cs ih =>
    simp only [escape, List.flatMap_cons] at ih ⊢
    by_cases h1 : c = '~'
    · subst h1; simp [escapeChar, unescape, ih]
    by_cases h2 : c = '/'
    · subst h2; simp [escapeChar, unescape, ih]
    simp only [escapeChar, h1, h2, if_false, List.singleton_append]
    rw [unescape.eq_3 _ _ (fun cs' e => absurd e h1) (fun cs' e => absurd e h1), ih]

/-- An escaped step holds no slash. -/
theorem slash_notMem_escape (token : List Char) : '/' ∉ escape token := by
  induction token with
  | nil => simp [escape]
  | cons c cs ih =>
    simp only [escape, List.flatMap_cons, List.mem_append, not_or] at ih ⊢
    refine ⟨?_, ih⟩
    unfold escapeChar
    split
    · decide
    · split
      · decide
      · rename_i h; simpa using fun e => h e.symm

/-- The tokens of a pointer can be told apart again. -/
theorem read_chars (tokens : List (List Char)) : read (chars tokens) = tokens := by
  have key : ∀ (t : List Char) (ts : List (List Char)),
      (Text.splitAt '/' (escape t ++ chars ts)).map unescape = t :: ts := by
    intro t ts
    induction ts generalizing t with
    | nil =>
      simp [chars, Text.splitAt_of_notMem (slash_notMem_escape t), unescape_escape]
    | cons u us ih =>
      have h : chars (u :: us) = '/' :: (escape u ++ chars us) := by simp [chars]
      rw [h, Text.splitAt_append (slash_notMem_escape t), List.map_cons, ih, unescape_escape]
  cases tokens with
  | nil => rfl
  | cons t ts =>
    have h : chars (t :: ts) = '/' :: (escape t ++ chars ts) := by simp [chars]
    rw [h, read, key]

end Pointer

end DocDesk.Schema
