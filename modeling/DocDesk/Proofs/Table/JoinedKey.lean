import DocDesk.Proofs.Table.Leaf
import DocDesk.Proofs.Text.Replacement

/-!
# Joined keys without loss

A joined key is cut at its bare dots, and a dot is bare if an even number of backslashes stands directly
in front of it: of a run of backslashes every second one is escaped by the one before it, so that the
last one escapes what follows exactly if the run is odd.  An escaped step puts an even number into each
of its runs and one more in front of its dots, so the cuts are where steps were joined.

Main statement: `keyOf_lossless` (the key of steps tells their texts, unless the first of them is empty).
-/

namespace DocDesk.Table

/-- A step is escaped by doubling its backslashes first and putting one in front of each dot then. -/
theorem escape_eq_replaceChar (step : List Char) :
    escape step = Text.replaceChar '.' ['\\', '.'] (Text.replaceChar '\\' ['\\', '\\'] step) := by
  rw [Text.replaceChar_replaceChar, escape]
  refine congrArg (step.flatMap ·) (funext fun c => ?_)
  by_cases hslash : c = '\\'
  · subst hslash
    rfl
  · by_cases hdot : c = '.'
    · subst hdot
      rfl
    · rw [escapeChar, if_neg (by simp [hslash, hdot]), if_neg hslash, if_neg hdot]

/-! ## Cutting at the bare dots -/

/-- The parts of a text between its bare dots, with their escapes, where `run` backslashes stand directly in
front of the text. -/
def cutDots (run : Nat) : List Char → List (List Char)
  | [] => [[]]
  | c :: cs =>
    if c = '.' ∧ run % 2 = 0 then [] :: cutDots 0 cs
    else pushFront c (cutDots (if c = '\\' then run + 1 else 0) cs)

/-- The steps of a key: its parts between the bare dots, with the escapes undone. -/
def readKey (key : List Char) : List (List Char) := (cutDots 0 key).map unescape

/-- Only the parity of the run in front of a text matters. -/
theorem cutDots_add_two (run : Nat) (cs : List Char) : cutDots (run + 2) cs = cutDots run cs := by
  induction cs generalizing run with
  | nil => rfl
  | cons c cs ih =>
    rw [cutDots, cutDots, Nat.add_mod_right]
    by_cases hslash : c = '\\'
    · rw [if_pos hslash, if_pos hslash, Nat.add_right_comm, ih]
    · rw [if_neg hslash, if_neg hslash]

/-- A character that is no backslash stands for itself. -/
theorem unescape_cons {c : Char} (h : c ≠ '\\') (cs : List Char) :
    unescape (c :: cs) = c :: unescape cs := by
  cases cs with
  | nil => rfl
  | cons d cs => exact if_neg h

/-- So does it in front of a part. -/
theorem map_unescape_pushFront {c : Char} (h : c ≠ '\\') (parts : List (List Char)) :
    (pushFront c parts).map unescape = pushFront c (parts.map unescape) := by
  cases parts with
  | nil => rfl
  | cons part parts => exact congrArg (· :: parts.map unescape) (unescape_cons h part)

/-- Behind a backslash every character stands for itself. -/
theorem map_unescape_pushFront_escaped (c : Char) (parts : List (List Char)) :
    (pushFront '\\' (pushFront c parts)).map unescape = pushFront c (parts.map unescape) := by
  cases parts <;> rfl

/-- Behind an escaping backslash any character belongs to the part. -/
theorem cutDots_escaped (c : Char) (cs : List Char) :
    cutDots 0 ('\\' :: c :: cs) = pushFront '\\' (pushFront c (cutDots 0 cs)) := by
  have hrun : cutDots (if c = '\\' then 2 else 0) cs = cutDots 0 cs := by
    split
    · exact cutDots_add_two 0 cs
    · rfl
  rw [cutDots, if_neg (by simp), if_pos rfl, cutDots, if_neg (by simp), hrun]

/-- An escaped character is read into the first part. -/
theorem readKey_escaped (c : Char) (cs : List Char) :
    readKey ('\\' :: c :: cs) = pushFront c (readKey cs) := by
  rw [readKey, cutDots_escaped, map_unescape_pushFront_escaped, readKey]

/-- A dot ends a part. -/
theorem readKey_dot (cs : List Char) : readKey ('.' :: cs) = [] :: readKey cs := rfl

/-- Any other character is read into the first part. -/
theorem readKey_plain {c : Char} (hslash : c ≠ '\\') (hdot : c ≠ '.') (cs : List Char) :
    readKey (c :: cs) = pushFront c (readKey cs) := by
  rw [readKey, cutDots, if_neg fun h => hdot h.1, if_neg hslash, map_unescape_pushFront hslash,
    readKey]

/-- Cutting at the bare dots and undoing the escapes then is what one pass over the key does. -/
theorem readKey_eq_cutKey (key : List Char) : readKey key = cutKey key := by
  fun_induction cutKey key with
  | case1 => rfl
  | case2 => rfl
  | case3 c hdot =>
    by_cases hslash : c = '\\'
    · subst hslash
      rfl
    · exact readKey_plain hslash hdot []
  | case4 d cs ih => rw [readKey_escaped, ih]
  | case5 d cs hslash ih => rw [readKey_dot, ih]
  | case6 c d cs hslash hdot ih => rw [readKey_plain hslash hdot, ih]

/-! ## Steps told by the key -/

/-- The key of steps, joined one after the other from no parent on. -/
def keyOf (steps : List Step) : List Char :=
  steps.foldl (fun key step => joinKey key step.text ['.']) []

/-- The key of some steps joins their texts one by one. -/
theorem keyOf_eq_keyFrom (steps : List Step) :
    keyOf steps = keyFrom ['.'] [] (steps.map Step.text) := by
  rw [keyFrom, List.foldl_map, keyOf]

/-- A step that is no empty name has a text. -/
theorem Step.text_ne_nil {step : Step} (h : step ≠ .name "") : step.text ≠ [] := by
  cases step with
  | name s =>
    intro hnil
    exact h (congrArg Step.name (String.toList_eq_nil_iff.mp hnil))
  | index i => exact natText_ne_nil i

/-- Reading a key gives back its steps, if the first of them leaves a trace. -/
theorem readKey_keyOf {first : Step} (h : first ≠ .name "") (rest : List Step) :
    readKey (keyOf (first :: rest)) = (first :: rest).map Step.text := by
  have hnamed : named ((first :: rest).map Step.text) = (first :: rest).map Step.text :=
    named_eq_self (Step.text_ne_nil h) _
  rw [readKey_eq_cutKey, keyOf_eq_keyFrom, keyFrom_nil, hnamed]
  exact cutKey_join (List.cons_ne_nil _ _)

/-- The key of steps of which the first is not empty is cut at its bare dots into the texts of the steps,
later empty ones included; so two such lists of steps have one key exactly if they are the same as
texts. -/
theorem keyOf_lossless {first other : Step} (hfirst : first ≠ .name "") (hother : other ≠ .name "")
    (rest others : List Step) :
    readKey (keyOf (first :: rest)) = (first :: rest).map Step.text ∧
      (keyOf (first :: rest) = keyOf (other :: others) ↔
        (first :: rest).map Step.text = (other :: others).map Step.text) := by
  refine ⟨readKey_keyOf hfirst rest, fun h => ?_, fun h => ?_⟩
  · rw [← readKey_keyOf hfirst, h, readKey_keyOf hother]
  · rw [keyOf_eq_keyFrom, h, keyOf_eq_keyFrom]

/-- Names of backslashes and dots, one of them empty, around an index. -/
def slashSteps : List Step := [.name "", .index 10, .name ".\\.", .name ""]

/-- Names that end in backslashes or hold dots are told apart. -/
theorem keyOf_lossless_slashes :
    Step.name "a\\" ≠ .name "" ∧ Step.name "a\\." ≠ .name "" ∧
      keyOf (.name "a\\" :: slashSteps) = "a\\\\..10.\\.\\\\\\..".toList ∧
      readKey (keyOf (.name "a\\" :: slashSteps))
        = ["a\\", "", "10", ".\\.", ""].map String.toList ∧
      keyOf (.name "a\\" :: slashSteps) ≠ keyOf [.name "a\\.", .index 10, .name ".\\.."] := by
  have hfirst : Step.name "a\\" ≠ .name "" := by decide
  have hother : Step.name "a\\." ≠ .name "" := by decide
  obtain ⟨hread, hsame⟩ := keyOf_lossless hfirst hother slashSteps [.index 10, .name ".\\.."]
  exact ⟨hfirst, hother, by decide, hread.trans (by decide), mt hsame.mp (by decide)⟩

end DocDesk.Table
