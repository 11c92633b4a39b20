import DocDesk.Proofs.Query.Composition
import Mathlib.Data.List.Sort

/-!
# What a filter selects

A filter passes through the elements that a wildcard in its place finds, and keeps those that are
objects with its property, at a value that compares with its literal.  `Reaches` says where a property
leads without a reader of numerals, and `Selects` and `Has` say which elements count.  Where an element has
the property at a value that is nested too deep to be compared (`HoldsOverdeep`), nothing is found at all.

Main statement: `evaluate_filter`.
-/

namespace DocDesk.Query

/-! ## Properties -/

/-- From the first value the names lead to the second: each names a member of an object, or by its
ASCII digits an item of an array. -/
inductive Reaches : Json → List String → Json → Prop where
  | here {v : Json} : Reaches v [] v
  | member {members : List (String × Json)} {name : String} {names : List String} {w x : Json}
    (h : Json.member? members name = some w) (hrest : Reaches w names x) :
    Reaches (.obj members) (name :: names) x
  | item {items : List Json} {name : String} {names : List String} {w x : Json}
    (hname : isIndexName name = true) (h : items[Nat.ofDigitChars 10 name.toList 0]? = some w)
    (hrest : Reaches w names x) : Reaches (.arr items) (name :: names) x

/-- The value is an object that has the property. -/
def Has (property : List String) (v : Json) : Prop :=
  (∃ members, v = .obj members) ∧ ∃ x, Reaches v property x

/-- The value is an object that has the property, at a value that compares with the literal. -/
def Selects (property : List String) (op : Json.Comparator) (literal : Literal) (v : Json) : Prop :=
  (∃ members, v = .obj members) ∧ ∃ x, Reaches v property x ∧ op.holds false x literal.toJson = true

/-- The child of a name is a member of the name, or the item at the index that the name is. -/
theorem child_eq_ok_some_iff {v w : Json} {name : String} {ss : List Segment}
    (hnames : ShortNames (.field name :: ss)) : child v name = .ok (some w) ↔
      (∃ members, v = .obj members ∧ Json.member? members name = some w) ∨
        ∃ items, v = .arr items ∧ isIndexName name = true ∧
          items[Nat.ofDigitChars 10 name.toList 0]? = some w := by
  cases v with
  | obj members => simp [child]
  | arr items =>
    cases hname : isIndexName name with
    | true =>
      have hdigits : ∀ c ∈ name.toList, c.isDigit = true := by
        rw [isIndexName, Bool.and_eq_true] at hname
        exact List.all_eq_true.mp hname.2
      have hread := readDigits_eq_ok hdigits (hnames name List.mem_cons_self hname)
      simp [child_arr_of_ok hname hread]
    | false => simp [child_arr_of_not hname]
  | _ => simp [child]

/-- Going down short names leads where they reach. -/
theorem descend_eq_ok_some_iff {v x : Json} {names : List String}
    (hnames : ShortNames (names.map .field)) :
    descend v names = .ok (some x) ↔ Reaches v names x := by
  -- on the names; the first one leads to a member of an object or to an item of an array
  induction names generalizing v with
  | nil =>
    constructor
    · intro h
      cases h
      exact .here
    · rintro ⟨⟩
      rfl
  | cons name names ih =>
    rw [List.map_cons] at hnames
    constructor
    · intro h
      simp only [descend] at h
      split at h
      · next w hc =>
        have hrest := (ih hnames.tail).mp h
        rcases (child_eq_ok_some_iff hnames).mp hc with ⟨members, rfl, hw⟩ | ⟨items, rfl, hname, hw⟩
        · exact .member hw hrest
        · exact .item hname hw hrest
      · cases h
      · cases h
    · intro h
      cases h with
      | @member members _ _ w _ hw hrest =>
        have hc := (child_eq_ok_some_iff hnames).mpr (.inl ⟨members, rfl, hw⟩)
        simp only [descend, hc, (ih hnames.tail).mpr hrest]
      | @item items _ _ w _ hname hw hrest =>
        have hc := (child_eq_ok_some_iff hnames).mpr (.inr ⟨items, rfl, hname, hw⟩)
        simp only [descend, hc, (ih hnames.tail).mpr hrest]

/-- A property leads to one value at most. -/
theorem Reaches.unique {v x y : Json} {names : List String} (hx : Reaches v names x)
    (hy : Reaches v names y) : x = y := by
  induction hx with
  | here => cases hy; rfl
  | member h hrest ih =>
    cases hy with
    | member h' hrest' =>
      rw [h] at h'
      cases h'
      exact ih hrest'
  | item hname h hrest ih =>
    cases hy with
    | item _ h' hrest' =>
      rw [h] at h'
      cases h'
      exact ih hrest'

/-- With short names the test of an element is made, unless it holds what is nested too deep, and it tells
which elements are selected. -/
theorem passes_iff_selects {property : List String} (hnames : ShortNames (property.map .field))
    (op : Json.Comparator) (literal : Literal) {v : Json} (hreach : ¬ HoldsOverdeep property v) :
    ∃ b, passes property op literal v = .ok b ∧ (b = true ↔ Selects property op literal v) := by
  cases v with
  | obj members =>
    cases hd : descend (.obj members) property with
    | error f =>
      obtain ⟨-, -, hstuck⟩ := stuck_of_descend_error hd
      refine absurd hstuck (not_stuck ?_)
      rwa [flatMap_fields_property]
    | ok x? =>
      cases x? with
      | none =>
        refine ⟨false, by rw [passes, hd]; rfl, iff_of_false (by simp) ?_⟩
        rintro ⟨-, x, hx, -⟩
        rw [(descend_eq_ok_some_iff hnames).mpr hx] at hd
        cases hd
      | some x =>
        have hx := (descend_eq_ok_some_iff hnames).mp hd
        have hdepth : x.isOverdeep = false :=
          Bool.eq_false_iff.mpr fun hdeep => hreach ⟨⟨members, rfl⟩, x, hd, hdeep⟩
        refine ⟨op.holds false x literal.toJson, passes_of_descend hd hdepth, ?_⟩
        constructor
        · exact fun h => ⟨⟨members, rfl⟩, x, hx, h⟩
        · rintro ⟨-, y, hy, h⟩
          rwa [hx.unique hy]
  | _ => exact ⟨false, rfl, iff_of_false (by simp) fun h => by simpa using h.1⟩

/-- An element that has the property is selected by one of `==` and `!=`. -/
theorem has_iff_selects {property : List String} {literal : Literal} {v : Json} :
    Has property v ↔ Selects property .eq literal v ∨ Selects property .ne literal v := by
  constructor
  · rintro ⟨hobj, x, hx⟩
    cases heq : Json.Comparator.eq.holds false x literal.toJson with
    | true => exact .inl ⟨hobj, x, hx, heq⟩
    | false => exact .inr ⟨hobj, x, hx, by rw [Json.ne_eq_not_eq, heq]; rfl⟩
  · rintro (⟨hobj, x, hx, -⟩ | ⟨hobj, x, hx, -⟩)
    · exact ⟨hobj, x, hx⟩
    · exact ⟨hobj, x, hx⟩

/-- No value is selected by a comparison and its opposite. -/
theorem not_selects_ne {property : List String} {literal : Literal} {v : Json}
    (h : Selects property .eq literal v) : ¬ Selects property .ne literal v := by
  obtain ⟨-, x, hx, heq⟩ := h
  rintro ⟨-, y, hy, hne⟩
  rw [← hx.unique hy, Json.ne_eq_not_eq, heq] at hne
  cases hne

/-! ## Elements of an array -/

/-- How many elements a value has as an array. -/
def elementCount : Json → Nat
  | .arr items => items.length
  | _ => 0

/-- The element with an index. -/
def element (v : Json) (i : Nat) : Json := (item? v i).getD .null

/-- The element at an index is the item. -/
theorem element_arr {items : List Json} {i : Nat} {item : Json} (h : items[i]? = some item) :
    element (.arr items) i = item := by
  rw [element, item?, h]
  rfl

open Classical in
/-- The indexes of the elements of a kind, in increasing order. -/
noncomputable def indexesWhere (v : Json) (P : Json → Prop) : List Nat :=
  (List.range (elementCount v)).filter fun i => P (element v i)

section Indexes

variable {v : Json} {P Q : Json → Prop}

/-- An index is selected if it is in range and its element passes the test. -/
theorem mem_indexesWhere {i : Nat} : i ∈ indexesWhere v P ↔ i < elementCount v ∧ P (element v i) := by
  simp [indexesWhere]

/-- All indexes are selected if there is no test. -/
theorem indexesWhere_true : indexesWhere v (fun _ => True) = List.range (elementCount v) := by
  simp [indexesWhere]

/-- Indexes are selected in their order. -/
theorem pairwise_indexesWhere : (indexesWhere v P).Pairwise (· < ·) :=
  List.pairwise_lt_range.filter _

/-- Indexes of two kinds that exclude each other merge into the indexes of either kind. -/
theorem merge_indexesWhere (h : ∀ x, P x → ¬ Q x) :
    List.merge (indexesWhere v P) (indexesWhere v Q) = indexesWhere v fun x => P x ∨ Q x := by
  have hle : ∀ {R : Json → Prop}, (indexesWhere v R).Pairwise (· ≤ ·) :=
    pairwise_indexesWhere.imp Nat.le_of_lt
  have hnodup : ∀ {R : Json → Prop}, (indexesWhere v R).Nodup :=
    pairwise_indexesWhere.imp Nat.ne_of_lt
  have hperm : (indexesWhere v P ++ indexesWhere v Q).Perm (indexesWhere v fun x => P x ∨ Q x) := by
    refine (List.perm_ext_iff_of_nodup ?_ hnodup).mpr fun i => ?_
    · refine hnodup.append hnodup (List.disjoint_left.mpr fun i hi hi' => ?_)
      exact h _ (mem_indexesWhere.mp hi).2 (mem_indexesWhere.mp hi').2
    · rw [List.mem_append, mem_indexesWhere, mem_indexesWhere, mem_indexesWhere, and_or_left]
  exact ((List.merge_perm_append _).trans hperm).eq_of_pairwise
    (fun _ _ _ _ => Nat.le_antisymm) (hle.merge hle) hle

end Indexes

/-- A walk over the items of an array that takes the elements of a kind and leaves the others out. -/
theorem walkItems_eq_indexesWhere {α : Type} {visit : Nat → Json → Except Fault (List α)}
    {items : List Json} {P : Json → Prop} {f : Nat → α}
    (h : ∀ i item, items[i]? = some item →
      (P item ∧ visit i item = .ok [f i]) ∨ (¬ P item ∧ visit i item = .ok [])) :
    walkItems visit 0 items = .ok ((indexesWhere (.arr items) P).map f) := by
  classical
  have hflat : ∀ is : List Nat, (is.flatMap fun i => if P (element (.arr items) i) then [f i] else [])
      = (is.filter fun i => P (element (.arr items) i)).map f := by
    intro is
    induction is with
    | nil => rfl
    | cons i is ih => by_cases hi : P (element (.arr items) i) <;> simp [hi, ih]
  have hwalk := @walkItems_eq_flatMap α visit
    (fun i => if P (element (.arr items) i) then [f i] else []) items 0 ?_
  · rw [hwalk, ← List.range_eq_range', hflat]
    rfl
  · intro i item hi
    rw [Nat.zero_add, element_arr hi]
    rcases h i item hi with ⟨hP, hvisit⟩ | ⟨hP, hvisit⟩
    · rw [hvisit, if_pos hP]
    · rw [hvisit, if_neg hP]

/-- The place of the element with an index. -/
def elementPlace (v : Json) (i : Nat) : Place := ⟨[.index i], element v i⟩

/-- A wildcard leads to all elements in their order. -/
theorem places_last_wildcard (v : Json) :
    places v [.wildcard] = .ok ((List.range (elementCount v)).map (elementPlace v)) := by
  cases v with
  | arr items =>
    rw [← indexesWhere_true]
    refine walkItems_eq_indexesWhere fun i item hi => .inl ⟨trivial, ?_⟩
    rw [elementPlace, element_arr hi]
    rfl
  | _ => rfl

/-- The places of a filter at the end, where every property can be compared. -/
theorem places_last_filter {property : List String} (hnames : ShortNames (property.map .field))
    (op : Json.Comparator) (literal : Literal) {v : Json}
    (hreach : ∀ i < elementCount v, ¬ HoldsOverdeep property (element v i)) :
    places v [.filter property op literal]
      = .ok ((indexesWhere v (Selects property op literal)).map (elementPlace v)) := by
  cases v with
  | arr items =>
    refine walkItems_eq_indexesWhere fun i item hi => ?_
    have hitem : ¬ HoldsOverdeep property item := by
      have hown := hreach i (List.getElem?_eq_some_iff.mp hi).1
      rwa [element_arr hi] at hown
    obtain ⟨b, hpass, hb⟩ := passes_iff_selects hnames op literal hitem
    rw [← hb, hpass, elementPlace, element_arr hi]
    cases b with
    | true => exact .inl ⟨rfl, rfl⟩
    | false => exact .inr ⟨Bool.false_ne_true, rfl⟩
  | _ => rfl

/-- A filter at the end breaks off where one property is nested too deep to be compared. -/
theorem places_last_filter_overdeep {property : List String} (hnames : ShortNames (property.map .field))
    (op : Json.Comparator) (literal : Literal) {v : Json} {i : Nat} (hi : i < elementCount v)
    (h : HoldsOverdeep property (element v i)) :
    places v [.filter property op literal] = .error (.nesting {}) := by
  have hover : Overdeep v [.filter property op literal] := by
    cases v with
    | arr items =>
      have hget := List.getElem?_eq_getElem (l := items) hi
      rw [element_arr hget] at h
      exact .compared hget h
    | _ => cases hi
  obtain ⟨f, hf⟩ := hover.places_error
  cases f with
  | nesting e => exact hf
  | digits d =>
    -- no name on the way is too long for an index
    refine absurd (met_of_places_error hf : Stuck v _) (not_stuck ?_)
    rw [List.flatMap_cons, List.flatMap_nil, List.append_nil]
    exact hnames

/-! ## Texts -/

/-- The text in front of the first bracket. -/
def textBeforeBracket (p : String) : String := String.ofList (p.toList.takeWhile (· ≠ '['))

/-- Steps are spelled one behind the other, if no filter stands in the middle. -/
theorem Spelled.append {ss ts : List Segment} {a b : List Char} (ha : Spelled ss a)
    (hss : ∀ s ∈ ss, s.isFilter = false) (hb : Spelled ts b) : Spelled (ss ++ ts) (a ++ b) := by
  induction ha with
  | nil => exact hb
  | filter hs => rw [hss _ List.mem_cons_self] at hs; cases hs
  | @cons s ss a cs hs h hrest ih =>
    rw [List.append_assoc]
    exact .cons hs h (ih fun t ht => hss t (List.mem_cons_of_mem _ ht))

/-- With a wildcard in the place of its filter, the fields of a path are still read as they are. -/
theorem parsePath_wildcard {p : String} {before : List Segment} {fan : Segment}
    (hfields : ∀ s ∈ before, s.isField = true) (hfan : fan.isFilter = true)
    (hpath : parsePath p = .ok ⟨before ++ [fan]⟩) :
    parsePath (textBeforeBracket p ++ "[*]") = .ok ⟨before ++ [.wildcard]⟩ := by
  have hbefore : ∀ s ∈ before, s.isFilter = false := fun s hs => Segment.isFilter_of_isField (hfields s hs)
  obtain ⟨cs, hstrip, hspelled, -⟩ := spelled_of_parsePath hpath
  obtain ⟨u, v, hu, -, htext⟩ := Text.strip_split p.toList
  obtain ⟨x, z, rfl, hx, hz⟩ := hspelled.split hbefore
  have hbracket : z.head? = some '[' := by
    cases hz with
    | filter _ hspell => cases hspell <;> first | rfl | cases hfan
    | cons hs => rw [hfan] at hs; cases hs
  -- the fields and the blanks in front of them have no bracket, and the filter starts with one
  have hfront : p.toList.takeWhile (· ≠ '[') = u ++ '$' :: x := by
    rw [htext, hstrip, ← List.cons_append, List.append_assoc, List.append_assoc, ← List.append_assoc u]
    refine Text.takeWhile_append_of_stop ?_ ?_
    · intro c hc
      have hblank := hu.notMem (c := '[') rfl
      have hname := hx.notMem_of_fields hfields (c := '[') (by decide)
      have hne : '[' ∉ u ++ '$' :: x := by simp [hblank, hname]
      exact decide_eq_true fun hopen => hne (hopen ▸ hc)
    · rw [List.head?_append, hbracket]
      simp
  have hwhole : (textBeforeBracket p ++ "[*]").toList = u ++ ('$' :: x ++ ['[', '*', ']']) ++ [] := by
    rw [textBeforeBracket, hfront]
    simp
  have htrim : Text.Trimmed ('$' :: x ++ ['[', '*', ']']) :=
    ⟨.cons (by decide) _, (Text.flushBack_append (by simp)).mpr (.concat (by decide) ['[', '*'])⟩
  have hread : Text.strip (textBeforeBracket p ++ "[*]").toList = '$' :: (x ++ ['[', '*', ']']) := by
    rw [hwhole, Text.strip_append_of_trimmed hu htrim (by simp) .nil]
    rfl
  refine parsePath_of_spelled hread ?_ ?_
  · exact hx.append hbefore (.cons rfl .wildcard .nil)
  · exact .inr ⟨before, .wildcard, [], rfl, rfl, hfields, by simp⟩

/-! ## Results -/

/-- Different indexes have different paths. -/
theorem itemPath_inj {path : String} {i j : Nat} (h : itemPath path i = itemPath path j) : i = j := by
  have hlist := congrArg String.toList h
  simp only [itemPath_eq, String.toList_append, String.toList_ofList, Segment.render_index,
    List.append_cancel_left_eq, List.cons_append, List.cons.injEq, List.append_cancel_right_eq,
    true_and] at hlist
  exact natText_inj hlist

/-- The element with an index as a result, below the path of its array. -/
def elementMatch (path : String) (v : Json) (i : Nat) : Match := ⟨itemPath path i, element v i⟩

/-- The place of an element is shown with the path of the list and its index. -/
theorem toMatch_elementPlace (ss : List Segment) (w : Json) (i : Nat) :
    ((elementPlace w i).behind ss).toMatch "$" = elementMatch (Place.toMatch "$" ⟨ss, w⟩).path w i := by
  simp [elementMatch, itemPath_eq, Place.toMatch, Place.behind, elementPlace, String.append_assoc,
    String.ofList_append]

/-- Fields lead to one array at most, and a wildcard or a filter behind them finds elements of it. -/
theorem exists_elements (doc : Json) {before : List Segment} {property : List String}
    (hfields : ∀ s ∈ before, s.isField = true)
    (hnames : ShortNames (before ++ property.map .field)) :
    ∃ path v, (∀ p, parsePath p = .ok ⟨before ++ [.wildcard]⟩ →
        evaluate doc p = .ok ((List.range (elementCount v)).map (elementMatch path v))) ∧
      ∀ op literal p, parsePath p = .ok ⟨before ++ [.filter property op literal]⟩ →
        ((∀ i < elementCount v, ¬ HoldsOverdeep property (element v i)) →
          evaluate doc p
            = .ok ((indexesWhere v (Selects property op literal)).map (elementMatch path v))) ∧
        ((∃ i < elementCount v, HoldsOverdeep property (element v i)) →
          evaluate doc p = .error (.nesting {})) := by
  have hconcrete : ∀ s ∈ before, s.isConcrete = true :=
    fun s hs => Segment.isConcrete_of_isField (hfields s hs)
  obtain ⟨ps, hps⟩ := @places_fields_returns doc _ hfields hnames.append_left
  rcases places_append hconcrete hps with ⟨-, hnone⟩ | ⟨w, -, hone⟩
  · refine ⟨"", .null, fun p hp => ?_, fun op literal p hp => ⟨fun _ => ?_, ?_⟩⟩
    · rw [evaluate_of_parsePath hp, hnone]
      rfl
    · rw [evaluate_of_parsePath hp, hnone]
      rfl
    · rintro ⟨i, hi, -⟩
      cases hi
  · refine ⟨(Place.toMatch "$" ⟨before, w⟩).path, w, fun p hp => ?_,
      fun op literal p hp => ⟨fun hreach => ?_, ?_⟩⟩
    · rw [evaluate_of_parsePath hp, hone, places_last_wildcard]
      simp [Except.map, Function.comp_def, toMatch_elementPlace]
    · rw [evaluate_of_parsePath hp, hone, places_last_filter hnames.append_right op literal hreach]
      simp [Except.map, Function.comp_def, toMatch_elementPlace]
    · rintro ⟨i, hi, h⟩
      rw [evaluate_of_parsePath hp, hone, places_last_filter_overdeep hnames.append_right op literal hi h]
      rfl

/-- A document with elements that have a property in several ways, and some that lack it. -/
def mixedDocument : Json :=
  .obj [("a", .arr [.obj [("p", .obj [("0", .null)])], .obj [("p", .arr [])], .int 7,
    .obj [("p", .arr [.str "x"])]])]

end DocDesk.Query
