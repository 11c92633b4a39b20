import DocDesk.Proofs.Text.Parts
import DocDesk.Table.Key

/-!
# Cutting dotted keys

A key joins steps with their dots and backslashes escaped, so it can be cut again: at each dot that no
backslash escapes (`cutKey_join`).  Steps that are empty leave no trace at the front of a key, since an
empty parent is no parent; what is left of the steps behind them is what the key tells
(`keyFrom_inj`).
-/

namespace DocDesk.Table

/-! ## Cutting -/

/-- Puts a character in front of the first part. -/
def pushFront (c : Char) : List (List Char) → List (List Char)
  | [] => [[c]]
  | part :: parts => (c :: part) :: parts

/-- The steps of a key: what stands between the dots that no backslash escapes, the escapes undone. -/
def cutKey : List Char → List (List Char)
  | [] => [[]]
  | [c] => if c = '.' then [[], []] else [[c]]
  | c :: d :: r =>
    if c = '\\' then pushFront d (cutKey r)
    else if c = '.' then [] :: cutKey (d :: r)
    else pushFront c (cutKey (d :: r))

/-- A dot ends a part. -/
theorem cutKey_dot (r : List Char) : cutKey ('.' :: r) = [] :: cutKey r := by
  cases r <;> rfl

/-- A character behind a backslash belongs to its part. -/
theorem cutKey_escaped (c : Char) (r : List Char) :
    cutKey ('\\' :: c :: r) = pushFront c (cutKey r) := rfl

/-- So does any other character. -/
theorem cutKey_plain {c : Char} (hslash : c ≠ '\\') (hdot : c ≠ '.') (r : List Char) :
    cutKey (c :: r) = pushFront c (cutKey r) := by
  cases r with
  | nil => exact if_neg hdot
  | cons d r => rw [cutKey, if_neg hslash, if_neg hdot]

/-- An escaped step is the front of the first part. -/
theorem cutKey_escape_append {step r part : List Char} {parts : List (List Char)}
    (h : cutKey r = part :: parts) : cutKey (escape step ++ r) = (step ++ part) :: parts := by
  induction step with
  | nil => exact h
  | cons c cs ih =>
    have hcons : escape (c :: cs) ++ r = escapeChar c ++ (escape cs ++ r) := by
      rw [escape, List.flatMap_cons, List.append_assoc]
      rfl
    rw [hcons, escapeChar]
    split
    · rw [List.cons_append, List.singleton_append, cutKey_escaped, ih]
      rfl
    · next hc =>
      rw [not_or] at hc
      rw [List.singleton_append, cutKey_plain hc.1 hc.2, ih]
      rfl

/-- Cutting a joined key gives back its steps. -/
theorem cutKey_join {steps : List (List Char)} (hne : steps ≠ []) :
    cutKey (Text.join ['.'] (steps.map escape)) = steps := by
  induction steps with
  | nil => exact absurd rfl hne
  | cons step rest ih =>
    cases rest with
    | nil =>
      have hlast : cutKey (escape step ++ []) = [step ++ []] := cutKey_escape_append rfl
      rwa [List.append_nil, List.append_nil] at hlast
    | cons next rest =>
      have hrest := ih (List.cons_ne_nil next rest)
      have hjoin : Text.join ['.'] ((step :: next :: rest).map escape)
          = escape step ++ '.' :: Text.join ['.'] ((next :: rest).map escape) := by
        simp [Text.join]
      rw [hjoin, cutKey_escape_append (cutKey_dot _), hrest, List.append_nil]

/-! ## Keys of steps -/

/-- The key of steps below a parent key. -/
def keyFrom (sep parent : List Char) (steps : List (List Char)) : List Char :=
  steps.foldl (fun key step => joinKey key step sep) parent

/-- The steps behind the empty ones at the front. -/
def named (steps : List (List Char)) : List (List Char) := steps.dropWhile List.isEmpty

/-- A step is joined to the key before it. -/
theorem keyFrom_cons (sep parent step : List Char) (steps : List (List Char)) :
    keyFrom sep parent (step :: steps) = keyFrom sep (joinKey parent step sep) steps := rfl

/-- Escaping leaves nothing only of nothing. -/
theorem escape_eq_nil_iff {step : List Char} : escape step = [] ↔ step = [] := by
  constructor
  · intro h
    have hback := unescape_escape step
    rw [h] at hback
    exact hback.symm
  · rintro rfl
    rfl

/-- Parts are joined to the first one by one. -/
theorem join_cons (sep part : List Char) (parts : List (List Char)) :
    Text.join sep (part :: parts) = part ++ parts.flatMap (sep ++ ·) := by
  induction parts generalizing part with
  | nil => simp [Text.join]
  | cons q qs ih =>
    have hcons : Text.join sep (part :: q :: qs) = part ++ sep ++ Text.join sep (q :: qs) := rfl
    rw [hcons, ih, List.flatMap_cons]
    simp only [List.append_assoc]

/-- Below a parent every step is joined to it. -/
theorem keyFrom_of_ne_nil {sep parent : List Char} (hne : parent ≠ []) (steps : List (List Char)) :
    keyFrom sep parent steps = Text.join sep (parent :: steps.map escape) := by
  induction steps generalizing parent with
  | nil => rfl
  | cons step rest ih =>
    have hjoin : joinKey parent step sep = parent ++ sep ++ escape step := by
      rw [joinKey, if_neg (by simpa using hne)]
    rw [keyFrom_cons, hjoin, ih (by simp [hne]), join_cons, join_cons, List.map_cons,
      List.flatMap_cons]
    simp only [List.append_assoc]

/-- A key joins the steps behind the empty ones at the front. -/
theorem keyFrom_nil (sep : List Char) (steps : List (List Char)) :
    keyFrom sep [] steps = Text.join sep ((named steps).map escape) := by
  induction steps with
  | nil => rfl
  | cons step rest ih =>
    have hjoin : joinKey [] step sep = escape step := rfl
    rw [keyFrom_cons, hjoin]
    by_cases hstep : step = []
    · subst hstep
      exact ih
    · have hnamed : named (step :: rest) = step :: rest := by
        rw [named, List.dropWhile_cons_of_neg (by simpa using hstep)]
      rw [hnamed, keyFrom_of_ne_nil (fun h => hstep (escape_eq_nil_iff.mp h)), List.map_cons]

/-- The first of the named steps is not empty. -/
theorem join_named_ne_nil {sep : List Char} {steps : List (List Char)} (h : named steps ≠ []) :
    Text.join sep ((named steps).map escape) ≠ [] := by
  obtain ⟨step, rest, hcons⟩ := List.exists_cons_of_ne_nil h
  have hhead : step ∈ (steps.dropWhile List.isEmpty).head? := by
    rw [← named, hcons]
    rfl
  have hstep : step.isEmpty = false := Text.head?_dropWhile hhead
  rw [hcons, List.map_cons, join_cons]
  intro he
  have hescape := (List.append_eq_nil_iff.mp he).1
  rw [escape_eq_nil_iff.mp hescape] at hstep
  cases hstep

/-- Two lists of steps have one key exactly if they are the same behind the empty steps in front. -/
theorem keyFrom_inj {steps others : List (List Char)} :
    keyFrom ['.'] [] steps = keyFrom ['.'] [] others ↔ named steps = named others := by
  rw [keyFrom_nil, keyFrom_nil]
  constructor
  · intro h
    by_cases hsteps : named steps = []
    · by_cases hothers : named others = []
      · rw [hsteps, hothers]
      · rw [hsteps] at h
        exact absurd h.symm (join_named_ne_nil hothers)
    · by_cases hothers : named others = []
      · rw [hothers] at h
        exact absurd h (join_named_ne_nil hsteps)
      · rw [← cutKey_join hsteps, h, cutKey_join hothers]
  · intro h
    rw [h]

end DocDesk.Table
