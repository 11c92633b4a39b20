import DocDesk.Proofs.Query.Place

/-!
# Places one after the other

A walk tells the places of its path one after the other, and may break off at a numeral that is too long
for an index.  What comes before has been told by then.  `trail` is the walk told in this way.

Main statements: `collect_trail` (the places that are told are those of the path) and
`ComesFirst.of_trail`.
-/

namespace DocDesk.Query

/-- Places one after the other, until they end or the walk breaks off. -/
inductive Trail where
  | done
  | broken (f : Fault)
  | found (p : Place) (rest : Unit → Trail)

namespace Trail

/-- Places in a row. -/
def append : Trail → (Unit → Trail) → Trail
  | done, next => next ()
  | broken f, _ => broken f
  | found p rest, next => found p fun _ => (rest ()).append next

/-- Places with every one changed. -/
def map (g : Place → Place) : Trail → Trail
  | done => done
  | broken f => broken f
  | found p rest => found (g p) fun _ => (rest ()).map g

/-- The places of items, the first of which has index `i`. -/
def ofItems (visit : Nat → Json → Trail) (i : Nat) : List Json → Trail
  | [] => done
  | item :: items => (visit i item).append fun _ => ofItems visit (i + 1) items

/-- All places, unless the walk breaks off. -/
def collect : Trail → Except Fault (List Place)
  | done => .ok []
  | broken f => .error f
  | found p rest => do
    let ps ← (rest ()).collect
    return p :: ps

/-- Trails one behind the other are collected one after the other. -/
theorem collect_append (t : Trail) (next : Unit → Trail) :
    (t.append next).collect = (do
      let ps ← t.collect
      let qs ← (next ()).collect
      return ps ++ qs) := by
  induction t with
  | done =>
    rw [append, collect]
    cases (next ()).collect <;> rfl
  | broken f => rfl
  | found p rest ih =>
    rw [append, collect, collect, ih]
    cases (rest ()).collect with
    | error f => rfl
    | ok ps => cases (next ()).collect <;> rfl

/-- Changing places commutes with collecting them. -/
theorem collect_map (g : Place → Place) (t : Trail) :
    (t.map g).collect = t.collect.map (List.map g) := by
  induction t with
  | done => rfl
  | broken f => rfl
  | found p rest ih =>
    rw [map, collect, collect, ih]
    cases (rest ()).collect <;> rfl

/-- Trails of items are collected item by item. -/
theorem collect_ofItems (visit : Nat → Json → Trail) (i : Nat) (items : List Json) :
    (ofItems visit i items).collect = walkItems (fun i item => (visit i item).collect) i items := by
  induction items generalizing i with
  | nil => rfl
  | cons item items ih =>
    rw [ofItems, collect_append, ih]
    rfl

end Trail

/-- The places that steps lead to from a value, told one after the other. -/
def trail (v : Json) : List Segment → Trail
  | [] => .found ⟨[], v⟩ fun _ => .done
  | .field name :: rest =>
    match child v name with
    | .ok (some w) => (trail w rest).map (Place.under (.field name))
    | .ok none => .done
    | .error f => .broken f
  | .index i :: rest =>
    match item? v i with
    | some w => (trail w rest).map (Place.under (.index i))
    | none => .done
  | .wildcard :: rest =>
    match v with
    | .arr items =>
      .ofItems (fun i item => (trail item rest).map (Place.under (.index i))) 0 items
    | _ => .done
  | .filter property op literal :: rest =>
    match v with
    | .arr items =>
      .ofItems
        (fun i item =>
          match passes property op literal item with
          | .ok true => (trail item rest).map (Place.under (.index i))
          | .ok false => .done
          | .error f => .broken f)
        0 items
    | _ => .done

/-- The places that are told are those that the steps lead to. -/
theorem collect_trail (v : Json) (ss : List Segment) : (trail v ss).collect = places v ss := by
  -- on the steps, for every value: behind each of them both go on in the same way
  induction ss generalizing v with
  | nil => rfl
  | cons s rest ih =>
    cases s with
    | field name =>
      rw [trail, places]
      cases child v name with
      | error f => rfl
      | ok w? =>
        cases w? with
        | none => rfl
        | some w =>
          dsimp only
          rw [Trail.collect_map, ih]
    | index i =>
      rw [trail, places]
      cases item? v i with
      | none => rfl
      | some w =>
        dsimp only
        rw [Trail.collect_map, ih]
    | wildcard =>
      cases v with
      | arr items =>
        rw [trail, places, Trail.collect_ofItems]
        simp only [Trail.collect_map, ih]
      | _ => rfl
    | filter property op literal =>
      cases v with
      | arr items =>
        rw [trail, places, Trail.collect_ofItems]
        congr 1
        funext i item
        cases passes property op literal item with
        | error f => rfl
        | ok b =>
          cases b with
          | false => rfl
          | true =>
            dsimp only
            rw [Trail.collect_map, ih]
      | _ => rfl

/-! ## First places -/

/-- The first place that a walk comes to: it is told, whatever comes behind it, and it stands in front of
what the whole walk finds. -/
structure ComesFirst (v : Json) (ss : List Segment) (p : Place) : Prop where
  told : ∃ rest, trail v ss = .found p rest
  front (path : String) : ∀ found, walk v path ss = .ok found → ∃ more, found = p.toMatch path :: more

/-- What a trail finds first comes first. -/
theorem ComesFirst.of_trail {v : Json} {ss : List Segment} {p : Place} {rest : Unit → Trail}
    (h : trail v ss = .found p rest) : ComesFirst v ss p := by
  refine ⟨⟨rest, h⟩, fun path found hfound => ?_⟩
  rw [walk_eq_places, ← collect_trail, h, Trail.collect] at hfound
  cases hrest : (rest ()).collect with
  | error f =>
    rw [hrest] at hfound
    cases hfound
  | ok ps =>
    rw [hrest] at hfound
    cases hfound
    exact ⟨ps.map (Place.toMatch path), rfl⟩

end DocDesk.Query
