/-!
# Cutting and joining texts

Beginnings, cuts at a separating character, and joins.  Main statements: `after?_eq_some_iff` (what
follows a beginning), `join_splitAt` (joining what was cut gives the text back).
-/

namespace DocDesk.Text

/-- What follows a given beginning of a text. -/
def after? : List Char → List Char → Option (List Char)
  | [], cs => some cs
  | _ :: _, [] => none
  | p :: ps, c :: cs => if p = c then after? ps cs else none

/-- What stands behind a front is what is left without it. -/
theorem after?_eq_some_iff {p cs r : List Char} : after? p cs = some r ↔ cs = p ++ r := by
  induction p generalizing cs with
  | nil => simp [after?, eq_comm]
  | cons a p ih =>
    cases cs with
    | nil => simp [after?]
    | cons c cs =>
      by_cases h : a = c
      · subst h; simp [after?, ih]
      · have : c ≠ a := fun e => h e.symm
        simp [after?, h, this]

/-- The parts of a text between the occurrences of a separating character; never empty. -/
def splitAt (sep : Char) : List Char → List (List Char)
  | [] => [[]]
  | c :: cs =>
    if c = sep then [] :: splitAt sep cs
    else match splitAt sep cs with
      | [] => [[c]]
      | part :: parts => (c :: part) :: parts

/-- Texts joined with a separator between each two. -/
def join (sep : List Char) : List (List Char) → List Char
  | [] => []
  | [part] => part
  | part :: parts => part ++ sep ++ join sep parts

/-- Splitting leaves one part at least. -/
theorem splitAt_ne_nil (sep : Char) (cs : List Char) : splitAt sep cs ≠ [] := by
  cases cs with
  | nil => simp [splitAt]
  | cons c cs =>
    simp only [splitAt]
    split
    · simp
    · split <;> simp

/-- A text without the separating character is one part. -/
theorem splitAt_of_notMem {sep : Char} {cs : List Char} (h : sep ∉ cs) : splitAt sep cs = [cs] := by
  induction cs with
  | nil => rfl
  | cons c cs ih =>
    simp only [List.mem_cons, not_or] at h
    have hc : c ≠ sep := fun e => h.1 e.symm
    simp [splitAt, hc, ih h.2]

/-- A text is cut at its first separating character. -/
theorem splitAt_append {sep : Char} {cs : List Char} (h : sep ∉ cs) (ds : List Char) :
    splitAt sep (cs ++ sep :: ds) = cs :: splitAt sep ds := by
  induction cs with
  | nil => simp [splitAt]
  | cons c cs ih =>
    simp only [List.mem_cons, not_or] at h
    have hc : c ≠ sep := fun e => h.1 e.symm
    simp [splitAt, hc, ih h.2]

/-- Joining what was cut gives the text back. -/
theorem join_splitAt (sep : Char) (cs : List Char) : join [sep] (splitAt sep cs) = cs := by
  induction cs with
  | nil => rfl
  | cons c cs ih =>
    have hne := splitAt_ne_nil sep cs
    cases hs : splitAt sep cs with
    | nil => exact absurd hs hne
    | cons part parts =>
      rw [hs] at ih
      by_cases h : c = sep
      · subst h
        simp only [splitAt, ↓reduceIte, hs, join, List.nil_append, List.singleton_append, ih]
      · simp only [splitAt, h, ↓reduceIte, hs]
        cases parts with
        | nil => simpa [join] using ih
        | cons q qs => simpa [join] using ih

/-- Texts joined with a separator between each two. -/
def joined (sep : String) (parts : List String) : String :=
  String.ofList (join sep.toList (parts.map String.toList))

/-- Puts a text in the place of every occurrence of a character. -/
def replaceChar (old : Char) (new : List Char) (cs : List Char) : List Char :=
  cs.flatMap fun c => if c = old then new else [c]

/-- The text repeated a number of times. -/
def repeated (n : Nat) (cs : List Char) : List Char := (List.replicate n cs).flatten

end DocDesk.Text
