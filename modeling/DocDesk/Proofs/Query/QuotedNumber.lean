import DocDesk.Proofs.Json.NumberText
import DocDesk.Proofs.Number.Notation
import DocDesk.Proofs.Query.Rendering
import DocDesk.Proofs.Query.Selection

/-!
# Number literals with and without quotes

A filter that compares with a number and one that compares with the text of that number agree on every
element whose property is null, a boolean or a number: they can part at texts and containers alone.

Main statements: `places_filter_congr` and `evaluate_quotedNumber`.
-/

namespace DocDesk.Query

/-! ## Filters that agree on numbers -/

/-- The value has the property, at null, a boolean or a number. -/
def isNumericAt (property : List String) (v : Json) : Bool :=
  match descend v property with
  | .ok (some x) => x.isNumeric
  | _ => false

section Congruence

variable {property : List String} {l l' : Literal}

/-- No literal is null. -/
theorem Literal.toJson_ne_null (l : Literal) : l.toJson ≠ .null := by
  cases l <;> simp [toJson]

/-- The tests of an element by two literals with one place in the order of numbers agree, or both are
made and the element has the property at a text or a container, if at all. -/
theorem passes_congr (h : l.toJson.toNumber.order? = l'.toJson.toNumber.order?)
    (op : Json.Comparator) (item : Json) :
    passes property op l item = passes property op l' item ∨
      isNumericAt property item = false ∧
        ∃ b b', passes property op l item = .ok b ∧ passes property op l' item = .ok b' := by
  cases item with
  | obj members =>
    cases hd : descend (.obj members) property with
    | error f => exact .inl (by rw [passes, passes, hd]; rfl)
    | ok x? =>
      cases x? with
      | none => exact .inl (by rw [passes, passes, hd]; rfl)
      | some x =>
        cases hdeep : x.isOverdeep with
        | true =>
          -- neither literal is compared
          have hholds : HoldsOverdeep property (.obj members) := ⟨⟨members, rfl⟩, x, hd, hdeep⟩
          exact .inl ((passes_eq_error_iff.mpr (.inr ⟨hholds, rfl⟩)).trans
            (passes_eq_error_iff.mpr (.inr ⟨hholds, rfl⟩)).symm)
        | false =>
          rw [passes_of_descend hd hdeep, passes_of_descend hd hdeep, isNumericAt, hd]
          by_cases hx : x.isNumeric = true
          · have hholds := Json.holds_congr op hx l.toJson_ne_null l'.toJson_ne_null h false false
            exact .inl (congrArg Except.ok hholds.1)
          · exact .inr ⟨Bool.eq_false_iff.mpr hx, _, _, rfl, rfl⟩
  | _ => exact .inl rfl

/-- The places of the values that have the property at null, a boolean or a number. -/
def numericPlaces (property : List String) (ps : List Place) : List Place :=
  ps.filter fun p => isNumericAt property p.value

/-- Choosing numeric places commutes with a step above them. -/
theorem map_under_numericPlaces (property : List String) (s : Segment)
    (r : Except Fault (List Place)) :
    (r.map (List.map (Place.under s))).map (numericPlaces property)
      = (r.map (numericPlaces property)).map (List.map (Place.under s)) := by
  cases r with
  | error f => rfl
  | ok ps => exact congrArg Except.ok List.filter_map

/-- Choosing them can be done after they are shown. -/
theorem filter_map_toMatch (property : List String) (path : String)
    (r : Except Fault (List Place)) :
    (r.map (List.map (Place.toMatch path))).map (List.filter fun m => isNumericAt property m.value)
      = (r.map (numericPlaces property)).map (List.map (Place.toMatch path)) := by
  cases r with
  | error f => rfl
  | ok ps => exact congrArg Except.ok List.filter_map

/-- Among the elements with the property at null, a boolean or a number, two literals with one place
in the order of numbers pass the same ones. -/
theorem places_last_filter_congr (h : l.toJson.toNumber.order? = l'.toJson.toNumber.order?)
    (op : Json.Comparator) (v : Json) :
    (places v [.filter property op l]).map (numericPlaces property)
      = (places v [.filter property op l']).map (numericPlaces property) := by
  cases v with
  | arr items =>
    have happend : ∀ xs ys, numericPlaces property (xs ++ ys)
        = numericPlaces property xs ++ numericPlaces property ys := fun _ _ => List.filter_append ..
    have hnil : numericPlaces property [] = [] := rfl
    rw [places, places, ← walkItems_distrib _ hnil happend, ← walkItems_distrib _ hnil happend]
    congr 1
    funext i item
    rcases passes_congr h op item with hsame | ⟨hitem, b, b', hb, hb'⟩
    · rw [hsame]
    · -- what passes here is left out on both sides
      have hnone : numericPlaces property [Place.under (.index i) ⟨[], item⟩] = [] := by
        rw [numericPlaces, List.filter_singleton, Place.under, hitem, cond_false]
      rw [hb, hb']
      cases b <;> cases b' <;> simp [places, Except.map, hnone, hnil]
  | _ => rfl

/-- So do the filters behind fields. -/
theorem places_filter_congr (h : l.toJson.toNumber.order? = l'.toJson.toNumber.order?)
    (op : Json.Comparator) {before : List Segment} (hfields : ∀ s ∈ before, s.isField = true)
    (v : Json) :
    (places v (before ++ [.filter property op l])).map (numericPlaces property)
      = (places v (before ++ [.filter property op l'])).map (numericPlaces property) := by
  induction before generalizing v with
  | nil => exact places_last_filter_congr h op v
  | cons s before ih =>
    have hrest := ih fun t ht => hfields t (List.mem_cons_of_mem _ ht)
    have hs := Segment.isConcrete_of_isField (hfields s List.mem_cons_self)
    rcases places_step v hs with ⟨f, hfail⟩ | hnone | ⟨w, hone⟩
    · rw [List.cons_append, List.cons_append, hfail, hfail]
    · rw [List.cons_append, List.cons_append, hnone, hnone]
    · rw [List.cons_append, List.cons_append, hone, hone, map_under_numericPlaces,
        map_under_numericPlaces, hrest w]

end Congruence

/-! ## Texts of filters -/

/-- The text names the property of a filter. -/
structure NamesProperty (names : String) (property : List String) : Prop where
  chars : ∀ c ∈ names.toList, c ∉ ['=', '!', '<', '>']
  parts : (Text.splitAt '.' names.toList).map Text.strip = property.map String.toList
  nonempty : "" ∉ property

/-- The text of a path with a filter behind the spelling of its other steps. -/
def filterText (base names : String) (op : Json.Comparator) (literal : List Char) : String :=
  "$" ++ base ++ "[?(@." ++ names ++ op.text ++ String.ofList literal ++ ")]"

/-- The text of a filter has its name, its comparison and its literal one behind the other. -/
theorem toList_filterText (base names : String) (op : Json.Comparator) (literal : List Char) :
    (filterText base names op literal).toList = '$' :: (base.toList ++ (['[', '?', '('] ++ [] ++
      ['@', '.'] ++ names.toList ++ op.text.toList ++ literal ++ [')', ']'] ++ [])) := by
  rw [filterText]
  simp

/-- Behind fields, a filter is read with the literal that it spells. -/
theorem parsePath_filterText {base names : String} {before : List Segment} {property : List String}
    {op : Json.Comparator} {l : Literal} {lit : List Char} (hbase : Spelled before base.toList)
    (hfields : ∀ s ∈ before, s.isField = true) (hnames : NamesProperty names property)
    (hop : lit.head? ≠ some '=') (hlit : LiteralSpelling l lit) :
    parsePath (filterText base names op lit) = .ok ⟨before ++ [.filter property op l]⟩ := by
  have hfilter : (Segment.filter property op l).Spelling _ :=
    .filter .nil hnames.chars hnames.parts hnames.nonempty (fun _ => hop) hlit
  have hbefore : ∀ s ∈ before, s.isFilter = false :=
    fun s hs => Segment.isFilter_of_isField (hfields s hs)
  have hwhole := hbase.append hbefore (.filter rfl hfilter [])
  refine parsePath_of_spelled ?_ hwhole (.inr ⟨before, _, [], rfl, rfl, hfields, by simp⟩)
  rw [toList_filterText, Text.strip_of_trimmed]
  refine ⟨.cons (by decide) _, ?_⟩
  rw [List.append_nil, List.append_cons _ ')' [']'], ← List.append_assoc, ← List.cons_append]
  exact .concat (by decide) _

/-- A text without quotes and backslashes stands between quotes for itself. -/
theorem QuotedBody.of_notMem {quote : Char} {s : List Char} (hslash : '\\' ∉ s) (hquote : quote ∉ s) :
    QuotedBody quote s s := by
  induction s with
  | nil => exact .nil
  | cons c s ih =>
    simp only [List.mem_cons, not_or] at hslash hquote
    exact .plain (Ne.symm hslash.1) (Ne.symm hquote.1) (ih hslash.2 hquote.2)

/-! ## Number literals -/

section Number

variable {n : String} {number : Json}

/-- A number literal without blanks at its ends is written in the notation of numbers. -/
theorem isNotation_of_numberLiteral? (htrim : Text.Trimmed n.toList)
    (h : Json.numberLiteral? n = some number) :
    n.toList ≠ [] ∧ (Json.textNumber n).isNaN = false ∧
      ∀ c ∈ n.toList, Numeral.isNotation c = true := by
  rw [Json.numberLiteral?_eq] at h
  split at h
  · cases h
  · next hblank =>
    have hreal : (Json.textNumber n).isNaN = false := by
      unfold Json.ofDouble? at h
      split at h
      · cases h
      · next hnan => exact Bool.eq_false_iff.mpr hnan
    refine ⟨fun hnil => hblank ?_, hreal, Numeral.isNotation_of_value ?_⟩
    · rw [Text.isBlankText, hnil]
      rfl
    · rw [Json.textNumber, Text.strip_of_trimmed htrim] at hreal
      exact Binary64.isNaN_eq_false_iff.mp hreal

/-- Without quotes a number literal stands for its number, and between them for its text. -/
theorem exists_literalSpelling {u v : List Char} (hu : Text.Blanks u) (hv : Text.Blanks v)
    (htrim : Text.Trimmed n.toList) (h : Json.numberLiteral? n = some number) :
    (∃ l : Literal, l.toJson = number ∧ LiteralSpelling l (u ++ n.toList ++ v)) ∧
      ∀ quote, quote = '\'' ∨ quote = '"' →
        LiteralSpelling (.text n) (u ++ quote :: n.toList ++ quote :: v) := by
  obtain ⟨hne, -, hchars⟩ := isNotation_of_numberLiteral? htrim h
  -- no quote, bracket or backslash is in the notation of a number, so each form ends where its end is written
  have hnot : ∀ d, Numeral.isNotation d = false → d ∉ n.toList := by
    intro d hd hmem
    rw [hchars d hmem] at hd
    cases hd
  constructor
  · have hbare : ∀ l : Literal, BareSpelling l n.toList → LiteralSpelling l (u ++ n.toList ++ v) := by
      intro l hl
      refine literalSpelling_of_trimmed hu htrim hne hv (fun d hd => hnot d ?_) hl
      simp only [List.mem_cons, List.not_mem_nil, or_false] at hd
      rcases hd with rfl | rfl | rfl <;> decide
    have hread : Json.numberLiteral? (String.ofList n.toList) = some number := by
      rw [String.ofList_toList, h]
    rcases PathReader.numberLiteral?_cases n with hnone | ⟨i, hint⟩ | ⟨x, hfloat⟩
    · rw [h] at hnone
      cases hnone
    · obtain rfl : number = .int i := Option.some.inj (h.symm.trans hint)
      exact ⟨.int i, rfl, hbare _ (.int hread)⟩
    · obtain rfl : number = .float x := Option.some.inj (h.symm.trans hfloat)
      exact ⟨.float x, rfl, hbare _ (.float hread)⟩
  · intro quote hquote
    have hbody : QuotedBody quote n.toList n.toList := by
      refine .of_notMem (hnot _ (by decide)) (hnot _ ?_)
      rcases hquote with rfl | rfl <;> decide
    have hspelled := LiteralSpelling.quoted hquote hu hbody hv
    rwa [String.ofList_toList] at hspelled

/-- Blanks do not bring in an equals sign. -/
theorem head_ne_of_blanks {u r : List Char} (hu : Text.Blanks u) (hr : r.head? ≠ some '=') :
    (u ++ r).head? ≠ some '=' := by
  cases u with
  | nil => exact hr
  | cons c u =>
    rw [List.cons_append, List.head?_cons, ne_eq, Option.some.injEq]
    rintro rfl
    exact absurd (hu '=' List.mem_cons_self) (by decide)

end Number

/-- A number literal may be quoted or not: the filter finds the same among the elements that have
its property at null, a boolean or a number, and the number of the literal is the number that its
text stands for. -/
theorem evaluate_quotedNumber (doc : Json) {base names n : String} {before : List Segment}
    {property : List String} {op : Json.Comparator} {u v : List Char} {quote : Char} {number : Json}
    (hbase : Spelled before base.toList) (hfields : ∀ s ∈ before, s.isField = true)
    (hnames : NamesProperty names property) (hu : Text.Blanks u) (hv : Text.Blanks v)
    (hquote : quote = '\'' ∨ quote = '"') (htrim : Text.Trimmed n.toList)
    (hn : Json.numberLiteral? n = some number) :
    ∃ l : Literal, l.toJson = number ∧
      parsePath (filterText base names op (u ++ n.toList ++ v))
        = .ok ⟨before ++ [.filter property op l]⟩ ∧
      parsePath (filterText base names op (u ++ quote :: n.toList ++ quote :: v))
        = .ok ⟨before ++ [.filter property op (.text n)]⟩ ∧
      (evaluate doc (filterText base names op (u ++ n.toList ++ v))).map
          (List.filter fun m => isNumericAt property m.value)
        = (evaluate doc (filterText base names op (u ++ quote :: n.toList ++ quote :: v))).map
          (List.filter fun m => isNumericAt property m.value) ∧
      number.toNumber.numEq (Json.textNumber n) = true := by
  obtain ⟨⟨l, hl, hbare⟩, hquoted⟩ := exists_literalSpelling hu hv htrim hn
  obtain ⟨hne, hreal, hchars⟩ := isNotation_of_numberLiteral? htrim hn
  have horder := Json.order?_numberLiteral? hn
  have hparse : parsePath (filterText base names op (u ++ n.toList ++ v))
      = .ok ⟨before ++ [.filter property op l]⟩ := by
    refine parsePath_filterText hbase hfields hnames ?_ hbare
    rw [List.append_assoc]
    refine head_ne_of_blanks hu ?_
    rw [List.head?_append, List.head?_eq_some_head hne, Option.some_or]
    intro he
    have hchar := hchars _ (List.head_mem hne)
    rw [Option.some.inj he] at hchar
    revert hchar
    decide
  have hparse' : parsePath (filterText base names op (u ++ quote :: n.toList ++ quote :: v))
      = .ok ⟨before ++ [.filter property op (.text n)]⟩ := by
    refine parsePath_filterText hbase hfields hnames ?_ (hquoted quote hquote)
    rw [List.append_assoc]
    refine head_ne_of_blanks hu ?_
    rcases hquote with rfl | rfl <;> simp
  refine ⟨l, hl, hparse, hparse', ?_, ?_⟩
  · have hplaces := @places_filter_congr property l (.text n) (hl ▸ horder) op before hfields doc
    rw [evaluate_of_parsePath hparse, evaluate_of_parsePath hparse', filter_map_toMatch,
      filter_map_toMatch, hplaces]
  · rw [Json.numEq_comm]
    exact Binary64.numEq_eq_true_iff.mpr ⟨hreal, horder.symm⟩

/-- A document whose elements have a property at a text and at other scalars. -/
def tenthsDocument : Json :=
  .obj [("a", .arr [.obj [("p", .str "9")], .obj [("p", .null)], .obj [("p", .int 10)],
    .obj [("p", .bool true)]])]

/-- Tenths with an exponent, against texts, null and booleans. -/
theorem evaluate_quotedNumber_exponent :
    Spelled [.field "a"] ".a".toList ∧ NamesProperty " p " ["p"] ∧
      Json.numberLiteral? "1e1" = some (.int 10) ∧
      evaluate tenthsDocument "$.a[?(@. p <1e1)]" =
        .ok [⟨"$.a[0]", .obj [("p", .str "9")]⟩, ⟨"$.a[1]", .obj [("p", .null)]⟩,
          ⟨"$.a[3]", .obj [("p", .bool true)]⟩] ∧
      evaluate tenthsDocument "$.a[?(@. p <'1e1')]" =
        .ok [⟨"$.a[1]", .obj [("p", .null)]⟩, ⟨"$.a[3]", .obj [("p", .bool true)]⟩] ∧
      (evaluate tenthsDocument "$.a[?(@. p <1e1)]").map
          (List.filter fun m => isNumericAt ["p"] m.value)
        = (evaluate tenthsDocument "$.a[?(@. p <'1e1')]").map
          (List.filter fun m => isNumericAt ["p"] m.value) := by
  have hbase : Spelled [.field "a"] ".a".toList := by
    have hname : ['a'] ≠ [] := by simp
    exact .cons rfl (.field hname (by simp)) .nil
  have hnames : NamesProperty " p " ["p"] := by
    have hchars : " p ".toList.all (fun c => decide (c ∉ ['=', '!', '<', '>'])) = true := by decide
    exact ⟨Text.forall_mem_of_all hchars, by decide, by decide⟩
  have hn : Json.numberLiteral? "1e1" = some (.int 10) := by
    rw [Json.numberLiteral?_eq, if_neg (by decide)]
    exact Json.ofDouble?_of_isWhole (by decide +kernel) (by decide +kernel)
  have hfields : ∀ s ∈ [Segment.field "a"], s.isField = true := by simp [Segment.isField]
  have htrim : Text.Trimmed "1e1".toList := by
    simp [Text.Trimmed, Text.Flush, Text.FlushBack, Text.isBlank]
  obtain ⟨l, hl, hbare, hquoted, hsame, -⟩ := @evaluate_quotedNumber tenthsDocument ".a" " p " "1e1"
    [.field "a"] ["p"] .lt [] [] '\'' (.int 10) hbase hfields hnames .nil .nil (.inl rfl) htrim hn
  obtain rfl : l = .int 10 := by
    cases l <;> cases hl
    rfl
  -- only the text is compared in two ways
  have hscalar : ∀ y, y = Json.int 10 ∨ y = .str "1e1" →
      Json.Comparator.lt.holds false .null y = true ∧
        Json.Comparator.lt.holds false (.int 10) y = false ∧
        Json.Comparator.lt.holds false (.bool true) y = true := by
    rintro y (rfl | rfl) <;> decide +kernel
  have hnumber : Json.Comparator.lt.holds false (.str "9") (.int 10) = true := by decide +kernel
  have htext : Json.Comparator.lt.holds false (.str "9") (.str "1e1") = false := by decide +kernel
  have hcompare : ∀ x y, (x = .str "9" ∨ x = .null ∨ x = .int 10 ∨ x = .bool true) →
      (y = Json.int 10 ∨ y = .str "1e1") →
      Json.Comparator.lt.compare false x y = .ok (Json.Comparator.lt.holds false x y) := by
    rintro x y (rfl | rfl | rfl | rfl) (rfl | rfl) <;> exact Json.compare_eq_ok rfl rfl rfl
  have hdigits : String.ofList (natText 0) = "0" ∧ String.ofList (natText 1) = "1" ∧
      String.ofList (natText 3) = "3" := by decide
  refine ⟨hbase, hnames, hn, ?_, ?_, hsame⟩
  · refine (evaluate_of_parsePath hbare).trans ?_
    simp [places, walkItems, passes, descend, child, Json.member?, Except.map, bind, Except.bind,
      Except.mapError, tenthsDocument, Literal.toJson, hcompare, hnumber, hscalar, hdigits, Place.under,
      Place.toMatch]
  · refine (evaluate_of_parsePath hquoted).trans ?_
    simp [places, walkItems, passes, descend, child, Json.member?, Except.map, bind, Except.bind,
      Except.mapError, tenthsDocument, Literal.toJson, hcompare, htext, hscalar, hdigits, Place.under,
      Place.toMatch]

end DocDesk.Query
