/-!
# Blank characters

The characters that count as blank at the ends of a text: the Unicode spaces together with the
control characters that separate lines and records.  Main statement: `strip_of_head_last` (a text
that neither starts nor ends with a blank is its own strip).
-/

namespace DocDesk.Text

/-- A blank is a Unicode space or one of the control characters that separate lines and records. -/
def isBlank (c : Char) : Bool :=
  let n := c.toNat
  (9 ≤ n && n ≤ 13) || (28 ≤ n && n ≤ 32) || n = 0x85 || n = 0xA0 || n = 0x1680 ||
    (0x2000 ≤ n && n ≤ 0x200A) || n = 0x2028 || n = 0x2029 || n = 0x202F || n = 0x205F || n = 0x3000

/-- Removes the blanks at the front. -/
def stripFront (cs : List Char) : List Char := cs.dropWhile isBlank

/-- Removes the blanks at the back. -/
def stripBack (cs : List Char) : List Char := (cs.reverse.dropWhile isBlank).reverse

/-- Removes the blanks at both ends. -/
def strip (cs : List Char) : List Char := stripBack (stripFront cs)

/-- The text without the blanks at its ends. -/
def stripped (s : String) : String := String.ofList (strip s.toList)

/-- A text of blanks alone, or no text. -/
def isBlankText (s : String) : Bool := (strip s.toList).isEmpty

/-- From a text that starts with no blank nothing is taken away. -/
theorem stripFront_of_head {c : Char} {cs : List Char} (h : isBlank c = false) :
    stripFront (c :: cs) = c :: cs := by
  simp [stripFront, h]

/-- A text that neither starts nor ends with a blank is its own strip. -/
theorem strip_of_head_last {cs : List Char} (hf : ∀ c ∈ cs.head?, isBlank c = false)
    (hb : ∀ c ∈ cs.getLast?, isBlank c = false) : strip cs = cs := by
  have h1 : stripFront cs = cs := by
    cases cs with
    | nil => rfl
    | cons c cs => exact stripFront_of_head (hf c rfl)
  rw [strip, h1, stripBack]
  have h2 : cs.reverse.dropWhile isBlank = cs.reverse := by
    cases hr : cs.reverse with
    | nil => rfl
    | cons c r =>
      have : cs.getLast? = some c := by rw [← List.head?_reverse, hr]; rfl
      simp [hb c this]
  rw [h2, List.reverse_reverse]

end DocDesk.Text
