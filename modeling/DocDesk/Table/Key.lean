import DocDesk.Json.Inspect
import DocDesk.Text.Split

/-!
# Dotted keys

A step of a dotted key has its dots and backslashes escaped by a backslash, so that the steps can be
told apart again.  Main statement: `unescape_escape`.
-/

namespace DocDesk.Table

/-- One character of an escaped step. -/
def escapeChar (c : Char) : List Char := if c = '\\' ∨ c = '.' then ['\\', c] else [c]

/-- An escaped step. -/
def escape (step : List Char) : List Char := step.flatMap escapeChar

/-- The step that an escaped text stands for. -/
def unescape : List Char → List Char
  | [] => []
  | [c] => [c]
  | c :: d :: r => if c = '\\' then d :: unescape r else c :: unescape (d :: r)

/-- A parent key and an escaped step with a separator between them; an empty parent is no parent. -/
def joinKey (parent : List Char) (step : List Char) (sep : List Char) : List Char :=
  if parent.isEmpty then escape step else parent ++ sep ++ escape step

/-- The escaped form of a key that need not be a text. -/
def escapeKey (key : Json) : String := String.ofList (escape key.plain.toList)

/-- Unescaping gives the step back. -/
theorem unescape_escape (step : List Char) : unescape (escape step) = step := by
  induction step with
  | nil => rfl
  | cons c cs ih =>
    by_cases h : c = '\\' ∨ c = '.'
    · have : escape (c :: cs) = '\\' :: c :: escape cs := by simp [escape, escapeChar, h]
      rw [this, unescape]
      simp [ih]
    · have hc : escape (c :: cs) = c :: escape cs := by simp [escape, escapeChar, h]
      have hb : c ≠ '\\' := fun e => h (.inl e)
      rw [hc]
      cases he : escape cs with
      | nil =>
        have : cs = [] := by
          rw [he] at ih; exact ih.symm
        simp [unescape, this]
      | cons d r => rw [unescape, if_neg hb, ← he, ih]

end DocDesk.Table
