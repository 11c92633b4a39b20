import DocDesk.Proofs.Text.Replacement
import DocDesk.Schema.Pointer

/-!
# Pointers without loss

The escapes of a pointer are two replacements in a row, and so is reading them, in the reverse order: a
tilde is written `~0` before a slash is written `~1`, and `~1` is read before `~0`.  In both directions
this is the same as one pass over the text (`escape_eq_replaceChar`, `decode_eq_unescape`), since the
second replacement leaves alone what the first one has put in.

Main statement: `text_lossless` (a pointer text tells the texts of its steps).
-/

namespace DocDesk.Schema

/-- A step as a value: a text or a whole number. -/
def Step.toJson : Step → Json
  | .name s => .str s
  | .index n => .int n

/-- A step is shown with its own characters. -/
theorem Step.plain_toJson (step : Step) : step.toJson.plain.toList = step.chars := by
  cases step with
  | name s => rfl
  | index n => exact String.toList_ofList

namespace Pointer

/-! ## Two replacements in a row -/

/-- A step is escaped by replacing its tildes first and its slashes then. -/
theorem escape_eq_replaceChar (token : List Char) :
    escape token = Text.replaceChar '/' ['~', '1'] (Text.replaceChar '~' ['~', '0'] token) := by
  rw [Text.replaceChar_replaceChar]
  rfl

/-- What a part of a pointer text stands for: `~1` is replaced by a slash first, `~0` by a tilde then. -/
def decode (part : List Char) : List Char :=
  Text.replacePair '~' '0' '~' (Text.replacePair '~' '1' '/' part)

/-- Reading in two replacements is reading in one pass. -/
theorem decode_eq_unescape (part : List Char) : decode part = unescape part := by
  fun_induction unescape part with
  | case1 cs ih =>
    have hslash : Text.replacePair '~' '1' '/' ('~' :: '0' :: cs)
        = '~' :: '0' :: Text.replacePair '~' '1' '/' cs := by
      rw [Text.replacePair_cons (by simp), Text.replacePair_cons (by simp)]
    rw [decode, hslash, Text.replacePair_pair]
    exact congrArg _ ih
  | case2 cs ih =>
    rw [decode, Text.replacePair_pair, Text.replacePair_cons (by simp)]
    exact congrArg _ ih
  | case3 c cs hzero hone ih =>
    -- a zero behind this character would have been there before
    have hslash : c = '~' → cs.head? ≠ some '1' := by
      rintro rfl hhead
      obtain ⟨ds, rfl⟩ := List.head?_eq_some_iff.mp hhead
      exact hone ds rfl rfl
    have htilde : c = '~' → (Text.replacePair '~' '1' '/' cs).head? ≠ some '0' := by
      rintro rfl hhead
      obtain ⟨ds, rfl⟩ := List.head?_eq_some_iff.mp (Text.head?_of_replacePair (by decide) hhead)
      exact hzero ds rfl rfl
    rw [decode, Text.replacePair_cons hslash, Text.replacePair_cons htilde]
    exact congrArg _ ih
  | case4 => rfl

/-- Read the other way round, the text `~01` of the name `~1` would be that of a slash. -/
example : Text.replacePair '~' '1' '/' (Text.replacePair '~' '0' '~' (escape ['~', '1'])) = ['/'] := by
  decide

/-! ## Steps told by the text -/

/-- The parts of a pointer text behind its slashes, each of them read; a text that starts with
anything else is no pointer. -/
def tokens? (pointer : String) : Option (List (List Char)) :=
  match pointer.toList with
  | [] => some []
  | '/' :: cs => some ((Text.splitAt '/' cs).map decode)
  | _ :: _ => none

/-- The pointer text of steps does not depend on whether they come as values. -/
theorem ofValues_toJson (steps : List Step) : ofValues (steps.map Step.toJson) = text steps := by
  rw [ofValues, text, List.map_map]
  exact congrArg (fun f => String.ofList (chars (steps.map f))) (funext Step.plain_toJson)

/-- The tokens of a pointer are the texts of its steps. -/
theorem tokens?_text (steps : List Step) : tokens? (text steps) = some (steps.map Step.chars) := by
  have hread := read_chars (steps.map Step.chars)
  rw [tokens?, text, String.toList_ofList]
  cases steps with
  | nil => rfl
  | cons step rest =>
    simp only [List.map_cons, chars, List.flatMap_cons, List.cons_append, read] at hread ⊢
    rw [funext decode_eq_unescape, hread]

/-- A pointer text, also of steps that come as values, tells the texts of its steps, whatever the names
hold, and only the empty list of steps has the empty text; so two lists of steps have one text exactly if
they are the same as texts. -/
theorem text_lossless (steps : List Step) :
    ofValues (steps.map Step.toJson) = text steps ∧
      tokens? (text steps) = some (steps.map Step.chars) ∧
      (text steps = "" ↔ steps = []) ∧
      ∀ others, text steps = text others ↔ steps.map Step.chars = others.map Step.chars := by
  have htokens := tokens?_text steps
  refine ⟨ofValues_toJson steps, htokens, ⟨?empty, fun h => h ▸ rfl⟩, fun others => ⟨?told, ?same⟩⟩
  case empty =>
    intro h
    rw [h] at htokens
    exact List.map_eq_nil_iff.mp (Option.some.inj htokens).symm
  case told =>
    intro h
    rw [h, tokens?_text] at htokens
    exact (Option.some.inj htokens).symm
  case same =>
    intro h
    rw [text, h, text]

end Pointer

end DocDesk.Schema
