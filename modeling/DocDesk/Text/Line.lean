import DocDesk.Text.Blank

/-!
# Lines and words of a text

A text is cut into lines, each with its line break, and a line into words, each with the blanks behind it.
Main statements: `flatten_lines` and `flatten_words` (nothing is lost).
-/

namespace DocDesk.Text

/-- A character that ends a line. -/
def isLineEnd (c : Char) : Bool :=
  c ∈ ['\n', '\x0b', '\x0c', '\r', '\x1c', '\x1d', '\x1e', '\u0085', '\u2028', '\u2029']

/-- Puts a character in front of the first of several parts. -/
def onto (c : Char) : List (List Char) → List (List Char)
  | [] => [[c]]
  | part :: parts => (c :: part) :: parts

/-- The lines of a text with their line breaks.  A carriage return and a line feed are one line break. -/
def lines : List Char → List (List Char)
  | [] => []
  | c :: cs =>
    if isLineEnd c && !(c = '\r' && cs.head? = some '\n') then [c] :: lines cs else onto c (lines cs)

/-- The words of a text with the blanks behind them. -/
def words : List Char → List (List Char)
  | [] => []
  | c :: cs =>
    if isBlank c && cs.head?.any fun d => !isBlank d then [c] :: words cs else onto c (words cs)

/-- A character in front of the parts stands in front of the text. -/
theorem flatten_onto (c : Char) (parts : List (List Char)) :
    (onto c parts).flatten = c :: parts.flatten := by
  cases parts <;> rfl

/-- The lines of a text make up the text. -/
theorem flatten_lines (cs : List Char) : (lines cs).flatten = cs := by
  induction cs with
  | nil => rfl
  | cons c cs ih => simp only [lines]; split <;> simp [flatten_onto, ih]

/-- The words of a text, with their blanks, make up the text. -/
theorem flatten_words (cs : List Char) : (words cs).flatten = cs := by
  induction cs with
  | nil => rfl
  | cons c cs ih => simp only [words]; split <;> simp [flatten_onto, ih]

end DocDesk.Text
