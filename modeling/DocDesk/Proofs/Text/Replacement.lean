import DocDesk.Text.Split

/-!
# Replacements in a text

A replacement of one character, or of two in a row, goes through the text once, from the front on.  Of
two replacements the second one also meets what the first one has put in (`replaceChar_replaceChar`), and
a character that begins no pair stays (`replacePair_cons`).
-/

namespace DocDesk.Text

/-! ## Characters -/

/-- Where a character does not occur nothing is replaced. -/
theorem replaceChar_of_notMem {old : Char} {new cs : List Char} (h : old ∉ cs) :
    replaceChar old new cs = cs := by
  induction cs with
  | nil => rfl
  | cons c cs ih =>
    obtain ⟨hc, hcs⟩ := not_or.mp (mt List.mem_cons.mpr h)
    rw [replaceChar, List.flatMap_cons, if_neg (Ne.symm hc), ← replaceChar, ih hcs]
    rfl

/-- Two texts are replaced one by one. -/
theorem replaceChar_append {old : Char} {new a b : List Char} :
    replaceChar old new (a ++ b) = replaceChar old new a ++ replaceChar old new b :=
  List.flatMap_append

/-- Two replacements, one after the other: the second one goes through the new text of the first. -/
theorem replaceChar_replaceChar (a b : Char) (u v cs : List Char) :
    replaceChar b v (replaceChar a u cs) =
      cs.flatMap fun c => if c = a then replaceChar b v u else if c = b then v else [c] := by
  rw [replaceChar, replaceChar, List.flatMap_assoc]
  refine congrArg (cs.flatMap ·) (funext fun c => ?_)
  by_cases hc : c = a
  · rw [if_pos hc, if_pos hc]
    rfl
  · rw [if_neg hc, if_neg hc, List.flatMap_singleton]

/-! ## Pairs of characters -/

/-- Puts a character in the place of every occurrence of two characters in a row. -/
def replacePair (a b new : Char) : List Char → List Char
  | [] => []
  | [c] => [c]
  | c :: d :: cs =>
    if c = a ∧ d = b then new :: replacePair a b new cs
    else c :: replacePair a b new (d :: cs)

section Pairs

variable {a b new : Char} {cs : List Char}

/-- A pair is replaced. -/
theorem replacePair_pair : replacePair a b new (a :: b :: cs) = new :: replacePair a b new cs :=
  if_pos ⟨rfl, rfl⟩

/-- What starts no pair stays. -/
theorem replacePair_cons {c : Char} (h : c = a → cs.head? ≠ some b) :
    replacePair a b new (c :: cs) = c :: replacePair a b new cs := by
  cases cs with
  | nil => rfl
  | cons d cs => exact if_neg fun hpair => h hpair.1 (congrArg some hpair.2)

/-- A replacement brings no character to the front but the one it puts in. -/
theorem head?_of_replacePair {d : Char} (hd : d ≠ new)
    (h : (replacePair a b new cs).head? = some d) : cs.head? = some d := by
  fun_cases replacePair a b new cs with
  | case1 => exact h
  | case2 => exact h
  | case3 c e cs hpair =>
    rw [replacePair, if_pos hpair] at h
    exact absurd (Option.some.inj h).symm hd
  | case4 c e cs hpair =>
    rw [replacePair, if_neg hpair] at h
    exact h

end Pairs

end DocDesk.Text
