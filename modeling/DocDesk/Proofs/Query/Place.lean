import DocDesk.Query.Evaluation

/-!
# Places of a document

A place is a list of concrete steps with the value they lead to.  `places` finds the places that a
path leads to, and a walk writes each of them out (`walk_eq_places`).  What is proved here is about
places alone: their steps lead back to them (`places_resolve`) and no two of them are the same
(`places_pairwise`).
-/

namespace DocDesk.Query

/-- Concrete steps from a value, with the value they lead to. -/
structure Place where
  steps : List Segment
  value : Json

/-- A place below a step. -/
def Place.under (s : Segment) (p : Place) : Place := ⟨s :: p.steps, p.value⟩

/-- A place as a result, its steps written behind the path of the value they start at. -/
def Place.toMatch (path : String) (p : Place) : Match :=
  ⟨path ++ String.ofList (p.steps.flatMap Segment.render), p.value⟩

/-- The places that steps lead to from a value. -/
def places (v : Json) : List Segment → Except Fault (List Place)
  | [] => .ok [⟨[], v⟩]
  | .field name :: rest =>
    match child v name with
    | .ok (some w) => (places w rest).map (List.map (Place.under (.field name)))
    | .ok none => .ok []
    | .error f => .error f
  | .index i :: rest =>
    match item? v i with
    | some w => (places w rest).map (List.map (Place.under (.index i)))
    | none => .ok []
  | .wildcard :: rest =>
    match v with
    | .arr items =>
      walkItems (fun i item => (places item rest).map (List.map (Place.under (.index i)))) 0 items
    | _ => .ok []
  | .filter property op literal :: rest =>
    match v with
    | .arr items =>
      walkItems
        (fun i item =>
          match passes property op literal item with
          | .ok true => (places item rest).map (List.map (Place.under (.index i)))
          | .ok false => .ok []
          | .error f => .error f)
        0 items
    | _ => .ok []

/-! ## Walking over items -/

section Items

variable {α β : Type} {visit : Nat → Json → Except Fault (List α)} {items : List Json}

/-- What is done to a list of results part by part can be done for each item. -/
theorem walkItems_distrib (visit : Nat → Json → Except Fault (List α)) {g : List α → List β}
    (hnil : g [] = []) (happend : ∀ xs ys, g (xs ++ ys) = g xs ++ g ys) (i : Nat)
    (items : List Json) :
    walkItems (fun i item => (visit i item).map g) i items = (walkItems visit i items).map g := by
  induction items generalizing i with
  | nil => rw [walkItems, walkItems, Except.map, hnil]
  | cons item items ih =>
    simp only [walkItems, ih]
    cases visit i item with
    | error f => rfl
    | ok found =>
      cases walkItems visit (i + 1) items with
      | error f => rfl
      | ok more => simp only [bind, Except.bind, Except.map, happend]

/-- Changing each result changes the results of every item. -/
theorem walkItems_map (visit : Nat → Json → Except Fault (List α)) (g : α → β) (i : Nat)
    (items : List Json) :
    walkItems (fun i item => (visit i item).map (List.map g)) i items
      = (walkItems visit i items).map (List.map g) :=
  walkItems_distrib visit List.map_nil (fun _ _ => List.map_append) i items

/-- The first item is visited, and then the others. -/
theorem walkItems_cons {i : Nat} {item : Json} {found : List α}
    (h : walkItems visit i (item :: items) = .ok found) :
    ∃ here more, visit i item = .ok here ∧ walkItems visit (i + 1) items = .ok more ∧
      found = here ++ more := by
  simp only [walkItems] at h
  cases hv : visit i item with
  | error f => simp [hv, bind, Except.bind] at h
  | ok here =>
    cases hw : walkItems visit (i + 1) items with
    | error f => simp [hv, hw, bind, Except.bind] at h
    | ok more =>
      simp only [hv, hw, bind, Except.bind, Except.ok.injEq] at h
      exact ⟨here, more, rfl, rfl, h.symm⟩

/-- A result of walking over items is a result of one of them, at its index. -/
theorem exists_of_mem_walkItems {k : Nat} {found : List α} (h : walkItems visit k items = .ok found)
    {x : α} (hx : x ∈ found) :
    ∃ i item xs, items[i]? = some item ∧ visit (k + i) item = .ok xs ∧ x ∈ xs := by
  induction items generalizing k found with
  | nil => cases h; cases hx
  | cons item items ih =>
    obtain ⟨here, more, hv, hw, rfl⟩ := walkItems_cons h
    rcases List.mem_append.mp hx with hx | hx
    · exact ⟨0, item, here, rfl, hv, hx⟩
    · obtain ⟨i, item', xs, hi, hvisit, hmem⟩ := ih hw hx
      exact ⟨i + 1, item', xs, hi, by rw [← hvisit]; congr 1; omega, hmem⟩

/-- Results that differ within an item and between items of different index differ altogether. -/
theorem walkItems_pairwise {R : α → α → Prop} {k : Nat} {found : List α}
    (hsame : ∀ i item xs, visit i item = .ok xs → xs.Pairwise R)
    (hcross : ∀ i j a b xs ys, i < j → visit i a = .ok xs → visit j b = .ok ys →
      ∀ x ∈ xs, ∀ y ∈ ys, R x y)
    (h : walkItems visit k items = .ok found) : found.Pairwise R := by
  induction items generalizing k found with
  | nil => cases h; exact .nil
  | cons item items ih =>
    obtain ⟨here, more, hv, hw, rfl⟩ := walkItems_cons h
    refine List.pairwise_append.mpr ⟨hsame k item here hv, ih hw, fun x hx y hy => ?_⟩
    obtain ⟨j, b, ys, -, hvisit, hmem⟩ := exists_of_mem_walkItems hw hy
    exact hcross k (k + 1 + j) item b here ys (by omega) hv hvisit x hx y hmem

end Items

/-! ## Walks and places -/

/-- A step above a place goes to the front of its path. -/
theorem toMatch_under (path : String) (s : Segment) (p : Place) :
    (p.under s).toMatch path = p.toMatch (path ++ String.ofList s.render) := by
  simp [Place.toMatch, Place.under, String.append_assoc, String.ofList_append]

/-- So does it for all places that are found. -/
theorem map_toMatch_under (path : String) (s : Segment) (r : Except Fault (List Place)) :
    (r.map (List.map (Place.under s))).map (List.map (Place.toMatch path))
      = r.map (List.map (Place.toMatch (path ++ String.ofList s.render))) := by
  cases r with
  | error f => rfl
  | ok ps => simp [Except.map, Function.comp_def, toMatch_under]

/-- A field is written behind the path. -/
theorem fieldPath_eq (path name : String) :
    path ++ "." ++ name = path ++ String.ofList (Segment.field name).render := by
  have hdot : "." ++ name = String.ofList ('.' :: name.toList) := by
    rw [← String.toList_inj]
    simp
  rw [String.append_assoc, hdot]
  rfl

/-- So is an index. -/
theorem itemPath_eq (path : String) (i : Nat) :
    itemPath path i = path ++ String.ofList (Segment.index i).render := by
  have hopen : "[" ++ (String.ofList (natText i) ++ "]")
      = String.ofList ('[' :: natText i ++ [']']) := by
    rw [← String.toList_inj]
    simp
  rw [itemPath, String.append_assoc, String.append_assoc, hopen]
  rfl

/-- A walk finds the places of its path and writes them out. -/
theorem walk_eq_places (v : Json) (path : String) (ss : List Segment) :
    walk v path ss = (places v ss).map (List.map (Place.toMatch path)) := by
  -- on the steps, for every value and every path text: both change with each step that is taken
  induction ss generalizing v path with
  | nil => simp [walk, places, Except.map, Place.toMatch]
  | cons s rest ih =>
    cases s with
    | field name =>
      simp only [walk, places]
      cases child v name with
      | error f => rfl
      | ok w? =>
        cases w? with
        | none => rfl
        | some w =>
          simp only [bind, Except.bind]
          rw [ih, fieldPath_eq, map_toMatch_under]
    | index i =>
      simp only [walk, places]
      cases item? v i with
      | none => rfl
      | some w =>
        dsimp only
        rw [ih, itemPath_eq, map_toMatch_under]
    | wildcard =>
      cases v with
      | arr items =>
        simp only [walk, places, ← walkItems_map]
        congr 1
        funext i item
        rw [ih, itemPath_eq, map_toMatch_under]
      | _ => rfl
    | filter property op literal =>
      cases v with
      | arr items =>
        simp only [walk, places, ← walkItems_map]
        congr 1
        funext i item
        cases passes property op literal item with
        | error f => rfl
        | ok b =>
          cases b with
          | false => rfl
          | true =>
            simp only [bind, Except.bind, ↓reduceIte]
            rw [ih, itemPath_eq, map_toMatch_under]
      | _ => rfl

/-- A path that is read is evaluated by its places. -/
theorem evaluate_of_parsePath {doc : Json} {q : String} {path : Path} (hq : parsePath q = .ok path) :
    evaluate doc q = (places doc path.segments).map (List.map (Place.toMatch "$")) := by
  simp only [evaluate, evaluateValue, pathOfValue, hq, Path.evaluate, walk_eq_places]

/-! ## One move -/

/-- From the first value, the step of a path can lead to the second value, by the concrete step. -/
inductive Move : Json → Segment → Segment → Json → Prop where
  | field {v w : Json} {name : String} (h : child v name = .ok (some w)) :
    Move v (.field name) (.field name) w
  | index {v w : Json} {i : Nat} (h : item? v i = some w) : Move v (.index i) (.index i) w
  | wildcard {items : List Json} {w : Json} {i : Nat} (h : items[i]? = some w) :
    Move (.arr items) .wildcard (.index i) w
  | filter {items : List Json} {w : Json} {i : Nat} {property : List String} {op : Json.Comparator}
    {literal : Literal} (h : items[i]? = some w) (hpass : passes property op literal w = .ok true) :
    Move (.arr items) (.filter property op literal) (.index i) w

/-- What is found under a step was found below it. -/
theorem exists_of_mem_map_under {s : Segment} {r : Except Fault (List Place)} {ps : List Place}
    {p : Place} (h : r.map (List.map (Place.under s)) = .ok ps) (hp : p ∈ ps) :
    ∃ qs q, r = .ok qs ∧ q ∈ qs ∧ p = q.under s := by
  cases r with
  | error f => cases h
  | ok qs =>
    simp only [Except.map, Except.ok.injEq] at h
    subst h
    obtain ⟨q, hq, rfl⟩ := List.mem_map.mp hp
    exact ⟨qs, q, rfl, hq, rfl⟩

/-- A place of a path lies behind one step, at a place of the rest of the path. -/
theorem exists_move_of_mem_places {v : Json} {s : Segment} {rest : List Segment} {ps : List Place}
    {p : Place} (h : places v (s :: rest) = .ok ps) (hp : p ∈ ps) :
    ∃ c w qs q, Move v s c w ∧ places w rest = .ok qs ∧ q ∈ qs ∧ p = q.under c := by
  -- one case for each kind of step; where the value is of another kind the step leads nowhere
  cases s with
  | field name =>
    simp only [places] at h
    cases hc : child v name with
    | error f => rw [hc] at h; cases h
    | ok w? =>
      rw [hc] at h
      cases w? with
      | none => cases h; cases hp
      | some w =>
        obtain ⟨qs, q, hqs, hq, rfl⟩ := exists_of_mem_map_under h hp
        exact ⟨_, w, qs, q, .field hc, hqs, hq, rfl⟩
  | index i =>
    simp only [places] at h
    cases hi : item? v i with
    | none => rw [hi] at h; cases h; cases hp
    | some w =>
      rw [hi] at h
      obtain ⟨qs, q, hqs, hq, rfl⟩ := exists_of_mem_map_under h hp
      exact ⟨_, w, qs, q, .index hi, hqs, hq, rfl⟩
  | wildcard =>
    cases v with
    | arr items =>
      obtain ⟨i, item, xs, hi, hvisit, hx⟩ := exists_of_mem_walkItems h hp
      obtain ⟨qs, q, hqs, hq, rfl⟩ := exists_of_mem_map_under hvisit hx
      exact ⟨_, item, qs, q, .wildcard hi, hqs, hq, by rw [Nat.zero_add]⟩
    | _ => cases h; cases hp
  | filter property op literal =>
    cases v with
    | arr items =>
      obtain ⟨i, item, xs, hi, hvisit, hx⟩ := exists_of_mem_walkItems h hp
      cases hpass : passes property op literal item with
      | error f => rw [hpass] at hvisit; cases hvisit
      | ok b =>
        rw [hpass] at hvisit
        cases b with
        | false => cases hvisit; cases hx
        | true =>
          obtain ⟨qs, q, hqs, hq, rfl⟩ := exists_of_mem_map_under hvisit hx
          exact ⟨_, item, qs, q, .filter hi hpass, hqs, hq, by rw [Nat.zero_add]⟩
    | _ => cases h; cases hp

/-- The concrete step leads on to the one place that lies behind it. -/
theorem Move.places_cons {v w : Json} {s c : Segment} {cs : List Segment} {q : Place}
    (h : Move v s c w) (hq : places w cs = .ok [q]) : places v (c :: cs) = .ok [q.under c] := by
  cases h with
  | field hc => simp [places, hc, hq, Except.map]
  | index hi => simp [places, hi, hq, Except.map]
  | wildcard hi => simp [places, item?, hi, hq, Except.map]
  | filter hi => simp [places, item?, hi, hq, Except.map]

/-! ## All steps -/

/-- The steps of a place lead to that place and to no other. -/
theorem places_resolve {v : Json} {ss : List Segment} {ps : List Place} (h : places v ss = .ok ps)
    {p : Place} (hp : p ∈ ps) : places v p.steps = .ok [p] := by
  -- move by move: the other steps of the place resolve from where its first step leads
  induction ss generalizing v ps p with
  | nil =>
    cases h
    rw [List.mem_singleton.mp hp]
    rfl
  | cons s rest ih =>
    obtain ⟨c, w, qs, q, hmove, hqs, hq, rfl⟩ := exists_move_of_mem_places h hp
    exact hmove.places_cons (ih hqs hq)

/-- A step in front keeps different steps different. -/
theorem pairwise_map_under {s : Segment} {r : Except Fault (List Place)} {ps : List Place}
    (hr : ∀ {qs}, r = .ok qs → qs.Pairwise fun p q => p.steps ≠ q.steps)
    (h : r.map (List.map (Place.under s)) = .ok ps) : ps.Pairwise fun p q => p.steps ≠ q.steps := by
  cases r with
  | error f => cases h
  | ok qs =>
    simp only [Except.map, Except.ok.injEq] at h
    subst h
    refine List.pairwise_map.mpr ((hr rfl).imp fun hne he => hne ?_)
    exact (List.cons.inj he).2

/-- Below items of different index the steps differ from the start. -/
theorem steps_ne_of_index_ne {i j : Nat} {r r' : Except Fault (List Place)} {xs ys : List Place}
    (hij : i ≠ j) (hxs : r.map (List.map (Place.under (.index i))) = .ok xs)
    (hys : r'.map (List.map (Place.under (.index j))) = .ok ys) :
    ∀ x ∈ xs, ∀ y ∈ ys, x.steps ≠ y.steps := by
  intro x hx y hy he
  obtain ⟨-, q, -, -, rfl⟩ := exists_of_mem_map_under hxs hx
  obtain ⟨-, q', -, -, rfl⟩ := exists_of_mem_map_under hys hy
  have hindex := (List.cons.inj he).1
  cases hindex
  exact hij rfl

/-- Two places of a path have different steps. -/
theorem places_pairwise {v : Json} {ss : List Segment} {ps : List Place} (h : places v ss = .ok ps) :
    ps.Pairwise fun p q => p.steps ≠ q.steps := by
  -- two places part at the first index that differs; below one item the induction tells them apart
  induction ss generalizing v ps with
  | nil =>
    cases h
    exact List.pairwise_singleton ..
  | cons s rest ih =>
    cases s with
    | field name =>
      simp only [places] at h
      split at h
      · exact pairwise_map_under ih h
      · cases h; exact .nil
      · cases h
    | index i =>
      simp only [places] at h
      split at h
      · exact pairwise_map_under ih h
      · cases h; exact .nil
    | wildcard =>
      cases v with
      | arr items =>
        exact walkItems_pairwise (fun i item xs hxs => pairwise_map_under ih hxs)
          (fun i j a b xs ys hij hxs hys => steps_ne_of_index_ne (Nat.ne_of_lt hij) hxs hys) h
      | _ => cases h; exact .nil
    | filter property op literal =>
      cases v with
      | arr items =>
        refine walkItems_pairwise (fun i item xs hxs => ?_) (fun i j a b xs ys hij hxs hys => ?_) h
        · split at hxs
          · exact pairwise_map_under ih hxs
          · cases hxs; exact .nil
          · cases hxs
        · -- an item that does not pass has no results to compare
          split at hxs
          · split at hys
            · exact steps_ne_of_index_ne (Nat.ne_of_lt hij) hxs hys
            · cases hys; simp
            · cases hys
          · cases hxs; simp
          · cases hxs
      | _ => cases h; exact .nil

end DocDesk.Query
