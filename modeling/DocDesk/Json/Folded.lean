import DocDesk.Json.Inspect
import DocDesk.Text.Line
import DocDesk.Text.Split

/-!
# Values over several lines

A value that is too long for a line is shown with its items or members one below the other, and a text that
is too long as several texts, cut behind line breaks and between words.

Main definition: `folded`.  Main statement: `flatten_cutLines` (cutting a text loses nothing).
-/

namespace DocDesk.Json

/-- The width of a line. -/
def foldWidth : Nat := 72

/-! ## Texts -/

/-- Words put together as long as what they make fits, in quotes, into a width; the last word leaves
room for what follows it. -/
def filled (width room : Nat) (line : List Char) : List (List Char) → List (List Char)
  | [] => if line = [] then [] else [line]
  | word :: words =>
    let width' := if words.isEmpty then width - room else width
    if (Text.quotedChars (line ++ word)).length ≤ width' then filled width room (line ++ word) words
    else if line = [] then filled width room word words
    else line :: filled width room word words

/-- Lines, and the parts of lines that do not fit into a width; the last line leaves room for what
follows it. -/
def cutLines (width room : Nat) : List (List Char) → List (List Char)
  | [] => []
  | line :: lines =>
    let room' := if lines.isEmpty then room else 0
    let parts :=
      if (Text.quotedChars line).length ≤ width - room' then [line]
      else filled width room' [] (Text.words line)
    parts ++ cutLines width room lines

/-- The parts of a text behind an indentation, one below the other. -/
def foldedText (indent room : Nat) (cs : List Char) : List Char :=
  match cutLines (foldWidth - indent) room (Text.lines cs) with
  | [] => Text.quotedChars []
  | parts => Text.join ('\n' :: List.replicate indent ' ') (parts.map Text.quotedChars)

/-- A text that stands by itself: several parts are in brackets. -/
def foldedAlone (cs : List Char) : List Char :=
  if (cutLines (foldWidth - 1) 1 (Text.lines cs)).length ≤ 1 then Text.quotedChars cs
  else '(' :: foldedText 1 1 cs ++ [')']

/-- Filling lines with words loses none of them. -/
theorem flatten_filled (width room : Nat) (line : List Char) (words : List (List Char)) :
    (filled width room line words).flatten = line ++ words.flatten := by
  induction words generalizing line with
  | nil => by_cases h : line = [] <;> simp [filled, h]
  | cons word words ih =>
    simp only [filled, apply_ite List.flatten, List.flatten_cons, ih]
    by_cases h : line = [] <;> simp [h]

/-- Cutting a text into lines loses nothing of it. -/
theorem flatten_cutLines (width room : Nat) (lines : List (List Char)) :
    (cutLines width room lines).flatten = lines.flatten := by
  induction lines with
  | nil => rfl
  | cons line lines ih =>
    simp [cutLines, apply_ite List.flatten, flatten_filled, Text.flatten_words, ih]

/-! ## Values -/

mutual

/-- A value behind an indentation, with room for what follows it on its last line. -/
def foldedFrom (indent room : Nat) (v : Json) : List Char :=
  let line := v.inspectChars
  if line.length + indent + room ≤ foldWidth then line
  else match v with
  | .arr vs => '[' :: foldedItems (indent + 1) (room + 1) vs ++ [']']
  | .obj ms => '{' :: foldedMembers (indent + 1) (room + 1) ms ++ ['}']
  | .str s => foldedText indent room s.toList
  | _ => line

/-- Items one below the other. -/
def foldedItems (indent room : Nat) : List Json → List Char
  | [] => []
  | [v] => foldedFrom indent room v
  | v :: w :: vs =>
    foldedFrom indent 1 v ++ ',' :: '\n' :: List.replicate indent ' ' ++ foldedItems indent room (w :: vs)

/-- Members one below the other. -/
def foldedMembers (indent room : Nat) : List (String × Json) → List Char
  | [] => []
  | [(k, v)] =>
    let name := Text.quotedChars k.toList ++ [':', ' ']
    name ++ foldedFrom (indent + name.length) room v
  | (k, v) :: m :: ms =>
    let name := Text.quotedChars k.toList ++ [':', ' ']
    name ++ foldedFrom (indent + name.length) 1 v ++ ',' :: '\n' :: List.replicate indent ' '
      ++ foldedMembers indent room (m :: ms)

end

/-- A value over as many lines as it needs, each line after the first one moved to the right. -/
def folded (margin : Nat) (v : Json) : String :=
  let cs := match v with
    | .str s => if v.inspectChars.length ≤ foldWidth then v.inspectChars else foldedAlone s.toList
    | v => foldedFrom 0 0 v
  String.ofList (cs.flatMap fun c =>
    if c = '\n' then '\n' :: List.replicate margin ' ' else [c])

end DocDesk.Json
