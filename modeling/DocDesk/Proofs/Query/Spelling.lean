import DocDesk.Proofs.Number.Digits
import DocDesk.Proofs.Text.Parts
import DocDesk.Query.PathReader

/-!
# Spellings of steps

Which texts spell a step of a path, said without a reader: `Segment.Spelling` with `LiteralSpelling`,
`BareSpelling` and `QuotedBody` for what stands inside a filter.  Each reader is then shown to take
exactly such a text off the front of what it is given: `readSegment_append` and `readSegment_split`.
-/

namespace DocDesk.Query

/-! ## The relations -/

/-- Between two of the quotes `quote`, the first text stands for the second: a backslash stands
before a character that is taken as it is. -/
inductive QuotedBody (quote : Char) : List Char → List Char → Prop where
  | nil : QuotedBody quote [] []
  | escaped (c : Char) {body s : List Char} (h : QuotedBody quote body s) :
    QuotedBody quote ('\\' :: c :: body) (c :: s)
  | plain {c : Char} {body s : List Char} (hslash : c ≠ '\\') (hquote : c ≠ quote)
    (h : QuotedBody quote body s) : QuotedBody quote (c :: body) (c :: s)

/-- A text without quotes spells a truth value, a number, or itself. -/
inductive BareSpelling : Literal → List Char → Prop where
  | true : BareSpelling (.bool true) "true".toList
  | false : BareSpelling (.bool false) "false".toList
  | int {i : Int} {cs : List Char} (h : Json.numberLiteral? (String.ofList cs) = some (.int i)) :
    BareSpelling (.int i) cs
  | float {x : Binary64} {cs : List Char}
    (h : Json.numberLiteral? (String.ofList cs) = some (.float x)) : BareSpelling (.float x) cs
  | text {cs : List Char} (htrue : cs ≠ "true".toList) (hfalse : cs ≠ "false".toList)
    (h : Json.numberLiteral? (String.ofList cs) = none) :
    BareSpelling (.text (String.ofList cs)) cs

/-- What stands between the comparator of a filter and its closing `)]`: a quoted text among blanks,
or anything else that holds no `)]`. -/
inductive LiteralSpelling : Literal → List Char → Prop where
  | quoted {quote : Char} {u body s v : List Char} (hquote : quote = '\'' ∨ quote = '"')
    (hu : Text.Blanks u) (hbody : QuotedBody quote body s) (hv : Text.Blanks v) :
    LiteralSpelling (.text (String.ofList s)) (u ++ quote :: body ++ quote :: v)
  | bare {literal : Literal} {c : Char} {u raw : List Char} (hu : Text.Blanks u)
    (hblank : Text.isBlank c = false) (hsingle : c ≠ '\'') (hdouble : c ≠ '"')
    (hclose : ¬ [')', ']'] <:+: c :: raw) (h : BareSpelling literal (Text.strip (c :: raw))) :
    LiteralSpelling literal (u ++ c :: raw)

/-- The texts that spell a step. -/
inductive Segment.Spelling : Segment → List Char → Prop where
  | field {name : List Char} (hne : name ≠ []) (hname : ∀ c ∈ name, c ∉ ['.', '[', ']', '*']) :
    Spelling (.field (String.ofList name)) ('.' :: name)
  | index {digits : List Char} (hne : digits ≠ []) (hdigits : ∀ c ∈ digits, c.isDigit = true)
    (hlen : digits.length ≤ digitLimit) :
    Spelling (.index (Nat.ofDigitChars 10 digits 0)) ('[' :: digits ++ [']'])
  | wildcard : Spelling .wildcard ['[', '*', ']']
  | filter {property : List String} {op : Json.Comparator} {literal : Literal}
    {u names lit : List Char} (hu : Text.Blanks u) (hnames : ∀ c ∈ names, c ∉ ['=', '!', '<', '>'])
    (hsplit : (Text.splitAt '.' names).map Text.strip = property.map String.toList)
    (hne : "" ∉ property) (hop : op = .lt ∨ op = .gt → lit.head? ≠ some '=')
    (hlit : LiteralSpelling literal lit) :
    Spelling (.filter property op literal)
      (['[', '?', '('] ++ u ++ ['@', '.'] ++ names ++ op.text.toList ++ lit ++ [')', ']'])

namespace PathReader

/-- A name goes on over all characters but four. -/
theorem endsName_eq_false_iff {c : Char} : endsName c = false ↔ c ∉ ['.', '[', ']', '*'] := by
  simp [endsName, and_assoc]

/-- A property goes on up to the sign of a comparison. -/
theorem endsProperty_eq_false_iff {c : Char} :
    endsProperty c = false ↔ c ∉ ['=', '!', '<', '>'] := by
  simp [endsProperty, and_assoc]

/-! ## Quoted literals -/

/-- The reader of a quoted text goes through its body and stops behind the closing quote. -/
theorem readQuoted_append {quote : Char} {body s : List Char} (hquote : quote ≠ '\\')
    (h : QuotedBody quote body s) (r : List Char) :
    readQuoted quote (body ++ quote :: r) = .ok (s, r) := by
  induction h with
  | nil =>
    cases r with
    | nil => simp [readQuoted]
    | cons d r => simp [readQuoted, hquote]
  | escaped c h ih => simp [readQuoted, ih]
  | @plain c body s hslash hne h ih =>
    -- the reader looks at two characters at once, and the closing quote is there to be the second
    obtain ⟨d, t, ht⟩ : ∃ d t, body ++ quote :: r = d :: t :=
      List.exists_cons_of_ne_nil (by simp)
    rw [List.cons_append, ht, readQuoted, if_neg hslash, if_neg hne, ← ht, ih]

/-- A text between quotes is its spelling with the closing quote behind it. -/
theorem readQuoted_split {quote : Char} {cs s r : List Char} (h : readQuoted quote cs = .ok (s, r)) :
    ∃ body, cs = body ++ quote :: r ∧ QuotedBody quote body s := by
  fun_induction readQuoted quote cs generalizing s r with
  | case1 => cases h
  | case2 => cases h; exact ⟨[], rfl, .nil⟩
  | case3 => cases h
  | case4 d t s' r' hq ih =>
    cases h
    obtain ⟨body, rfl, hbody⟩ := ih hq
    exact ⟨'\\' :: d :: body, rfl, .escaped d hbody⟩
  | case5 => cases h
  | case6 => cases h; exact ⟨[], rfl, .nil⟩
  | case7 c d t hslash hne s' r' hq ih =>
    cases h
    obtain ⟨body, hcs, hbody⟩ := ih hq
    exact ⟨c :: body, by rw [hcs, List.cons_append], .plain hslash hne hbody⟩
  | case8 => cases h

/-! ## Bare literals -/

/-- The first `)]` of a text that goes on behind one without another before it. -/
theorem splitAtClose_append {raw : List Char} (h : ¬ [')', ']'] <:+: raw) (r : List Char) :
    splitAtClose (raw ++ [')', ']'] ++ r) = some (raw, r) := by
  induction raw with
  | nil => simp [splitAtClose, Text.after?]
  | cons c raw ih =>
    have hraw : ¬ [')', ']'] <:+: raw := fun hin => h (List.infix_cons hin)
    -- a `)]` at the very front would lie in `raw`, since `)` alone may end it
    have hfront : Text.after? [')', ']'] (c :: raw ++ [')', ']'] ++ r) = none := by
      refine Option.eq_none_iff_forall_ne_some.mpr fun rest hrest => ?_
      rw [Text.after?_eq_some_iff] at hrest
      cases raw with
      | nil => simp at hrest
      | cons d raw =>
        simp only [List.cons_append, List.nil_append, List.cons.injEq] at hrest
        obtain ⟨rfl, rfl, -⟩ := hrest
        exact h ⟨[], raw, rfl⟩
    rw [List.cons_append, List.cons_append] at hfront ⊢
    rw [splitAtClose, hfront, ih hraw]
    rfl

/-- The first close of a filter has none before it. -/
theorem splitAtClose_split {cs raw r : List Char} (h : splitAtClose cs = some (raw, r)) :
    cs = raw ++ [')', ']'] ++ r ∧ ¬ [')', ']'] <:+: raw := by
  fun_induction splitAtClose cs generalizing raw r with
  | case1 => cases h
  | case2 c t rest ha =>
    cases h
    exact ⟨Text.after?_eq_some_iff.mp ha, by simp⟩
  | case3 c t ha ih =>
    simp only [Option.map_eq_some_iff, Prod.mk.injEq, Prod.exists] at h
    obtain ⟨raw', r', hs, rfl, rfl⟩ := h
    obtain ⟨rfl, hraw⟩ := ih hs
    refine ⟨by simp, fun hin => ?_⟩
    rcases List.infix_cons_iff.mp hin with hpre | hin
    · obtain ⟨rest, hrest⟩ := hpre
      have hsome : Text.after? [')', ']'] (c :: (raw' ++ [')', ']'] ++ r'))
          = some (rest ++ [')', ']'] ++ r') :=
        Text.after?_eq_some_iff.mpr (by rw [← List.cons_append, ← List.cons_append, ← hrest]; simp)
      rw [ha] at hsome
      cases hsome
    · exact hraw hin

/-- A number literal is an integer or a double, if it is one at all. -/
theorem numberLiteral?_cases (s : String) :
    Json.numberLiteral? s = none ∨ (∃ i, Json.numberLiteral? s = some (.int i)) ∨
      ∃ x, Json.numberLiteral? s = some (.float x) := by
  unfold Json.numberLiteral?
  split
  · exact .inl rfl
  · dsimp only
    split
    · exact .inl rfl
    · split
      · split
        · exact .inr (.inl ⟨_, rfl⟩)
        · exact .inr (.inr ⟨_, rfl⟩)
      · exact .inr (.inr ⟨_, rfl⟩)

/-- What stands without quotes is the spelling of its literal. -/
theorem bareSpelling_bareLiteral (cs : List Char) : BareSpelling (bareLiteral cs) cs := by
  unfold bareLiteral
  split
  · next h => exact h ▸ .true
  · next htrue =>
    split
    · next h => exact h ▸ .false
    · next hfalse =>
      rcases numberLiteral?_cases (String.ofList cs) with h | ⟨i, h⟩ | ⟨x, h⟩
      · rw [h]; exact .text htrue hfalse h
      · rw [h]; exact .int h
      · rw [h]; exact .float h

/-- A bare text spells one literal. -/
theorem bareLiteral_of_spelling {l : Literal} {cs : List Char} (h : BareSpelling l cs) :
    bareLiteral cs = l := by
  -- neither word is a number, so it does not matter which test comes first
  have htrue : Json.numberLiteral? (String.ofList "true".toList) = none := by decide
  have hfalse : Json.numberLiteral? (String.ofList "false".toList) = none := by decide
  have hne : ∀ {v : Json} {cs : List Char}, Json.numberLiteral? (String.ofList cs) = some v →
      cs ≠ "true".toList ∧ cs ≠ "false".toList := by
    intro v cs h
    constructor
    · intro hcs
      rw [hcs, htrue] at h
      cases h
    · intro hcs
      rw [hcs, hfalse] at h
      cases h
  cases h with
  | true => rfl
  | false => rfl
  | int h => rw [bareLiteral, if_neg (hne h).1, if_neg (hne h).2, h]
  | float h => rw [bareLiteral, if_neg (hne h).1, if_neg (hne h).2, h]
  | text ht hf h => rw [bareLiteral, if_neg ht, if_neg hf, h]

/-! ## Literals and comparators -/

/-- The reader of a literal goes through its spelling and the closing `)]`. -/
theorem readLiteral_append {l : Literal} {lit : List Char} (h : LiteralSpelling l lit)
    (r : List Char) : readLiteral (lit ++ [')', ']'] ++ r) = .ok (l, r) := by
  cases h with
  | @quoted quote u body s v hquote hu hbody hv =>
    have hblank : Text.isBlank quote = false := by rcases hquote with rfl | rfl <;> decide
    have hslash : quote ≠ '\\' := by rcases hquote with rfl | rfl <;> decide
    have hfront : Text.stripFront (u ++ quote :: body ++ quote :: v ++ [')', ']'] ++ r)
        = quote :: (body ++ quote :: (v ++ [')', ']'] ++ r)) := by
      have hassoc : u ++ quote :: body ++ quote :: v ++ [')', ']'] ++ r
          = u ++ quote :: (body ++ quote :: (v ++ [')', ']'] ++ r)) := by simp
      rw [hassoc, Text.stripFront_append hu (.cons hblank _)]
    have hback : Text.stripFront (v ++ [')', ']'] ++ r) = [')', ']'] ++ r := by
      rw [List.append_assoc]
      exact Text.stripFront_append hv (.cons (by decide) _)
    have hclose : Text.after? [')', ']'] ([')', ']'] ++ r) = some r :=
      Text.after?_eq_some_iff.mpr rfl
    simp only [readLiteral, hfront, hquote, ↓reduceIte, readQuoted_append hslash hbody, hback, hclose]
  | @bare _ c u raw hu hblank hsingle hdouble hclose hspell =>
    have hfront : Text.stripFront (u ++ c :: raw ++ [')', ']'] ++ r)
        = c :: (raw ++ [')', ']'] ++ r) := by
      have hassoc : u ++ c :: raw ++ [')', ']'] ++ r = u ++ c :: (raw ++ [')', ']'] ++ r) := by simp
      rw [hassoc, Text.stripFront_append hu (.cons hblank _)]
    have hquote : ¬ (c = '\'' ∨ c = '"') := not_or.mpr ⟨hsingle, hdouble⟩
    have hsplit := splitAtClose_append hclose r
    rw [List.cons_append, List.cons_append] at hsplit
    have hne : (Text.strip (c :: raw)).isEmpty = false :=
      List.isEmpty_eq_false_iff.mpr (Text.strip_cons_ne_nil hblank)
    simp only [readLiteral, hfront, hquote, ↓reduceIte, hsplit, hne, Bool.false_eq_true]
    rw [bareLiteral_of_spelling hspell]

/-- A literal that is read is spelled, with the close of the filter behind it. -/
theorem readLiteral_split {l : Literal} {cs r : List Char} (h : readLiteral cs = .ok (l, r)) :
    ∃ lit, cs = lit ++ [')', ']'] ++ r ∧ LiteralSpelling l lit := by
  obtain ⟨u, hu, hcs⟩ := Text.stripFront_split cs
  have hflush := Text.flush_stripFront cs
  unfold readLiteral at h
  dsimp only at h
  split at h
  · cases h
  · next quote t hfront =>
    rw [hfront] at hcs hflush
    split at h
    · next hquote =>
      split at h
      · cases h
      · next s rest hq =>
        obtain ⟨body, hbody, hspell⟩ := readQuoted_split hq
        obtain ⟨v, hv, hrest⟩ := Text.stripFront_split rest
        split at h
        · next r' ha =>
          cases h
          rw [Text.after?_eq_some_iff.mp ha] at hrest
          refine ⟨u ++ quote :: body ++ quote :: v, ?_, .quoted hquote hu hspell hv⟩
          rw [hcs, hbody, hrest]
          simp
        · cases h
    · next hquote =>
      split at h
      · cases h
      · next raw rest hs =>
        split at h
        · cases h
        · next hne =>
          cases h
          obtain ⟨ht, hclose⟩ := splitAtClose_split (hfront ▸ hs)
          obtain ⟨hsingle, hdouble⟩ := not_or.mp hquote
          have hblank : Text.isBlank quote = false := hflush quote rfl
          -- an empty raw text was refused before, so its first character is the one behind the blanks
          cases raw with
          | nil =>
            simp only [List.nil_append, List.cons_append, List.cons.injEq] at ht
            simp [Text.strip, Text.stripFront, Text.stripBack] at hne
          | cons d raw =>
            obtain ⟨rfl, rfl⟩ : quote = d ∧ t = raw ++ [')', ']'] ++ r := by
              simpa only [List.cons_append, List.cons.injEq] using ht
            refine ⟨u ++ quote :: raw, by rw [hcs]; simp, ?_⟩
            exact .bare hu hblank hsingle hdouble hclose (bareSpelling_bareLiteral _)

/-- A comparator is read off the front; `<` and `>` refuse an `=` behind them. -/
theorem readComparator_append {op : Json.Comparator} {r : List Char}
    (h : op = .lt ∨ op = .gt → r.head? ≠ some '=') :
    readComparator (op.text.toList ++ r) = .ok (op, r) := by
  cases op with
  | eq => rfl
  | ne => rfl
  | lt =>
    have hr := h (.inl rfl)
    simp [Json.Comparator.text, readComparator, hr]
  | gt =>
    have hr := h (.inr rfl)
    simp [Json.Comparator.text, readComparator, hr]

/-- A comparison is the longest that stands there. -/
theorem readComparator_split {cs r : List Char} {op : Json.Comparator}
    (h : readComparator cs = .ok (op, r)) :
    cs = op.text.toList ++ r ∧ (op = .lt ∨ op = .gt → r.head? ≠ some '=') := by
  unfold readComparator at h
  split at h
  · cases h; exact ⟨rfl, by simp⟩
  · cases h; exact ⟨rfl, by simp⟩
  · split at h
    · cases h
    · next hr => cases h; exact ⟨rfl, fun _ => hr⟩
  · split at h
    · cases h
    · next hr => cases h; exact ⟨rfl, fun _ => hr⟩
  · cases h

/-! ## Filters -/

/-- A comparison starts with a character that ends a property. -/
theorem comparator_head (op : Json.Comparator) (r : List Char) :
    ∀ c ∈ (op.text.toList ++ r).head?, (!endsProperty c) = false := by
  cases op <;> simp [Json.Comparator.text, endsProperty]

/-- Behind its names and comparator a filter is read as its literal is. -/
theorem readFilter_append {u names r : List Char} {op : Json.Comparator} (hu : Text.Blanks u)
    (hnames : ∀ c ∈ names, c ∉ ['=', '!', '<', '>'])
    (hne : ∀ part ∈ (Text.splitAt '.' names).map Text.strip, part ≠ [])
    (hop : op = .lt ∨ op = .gt → r.head? ≠ some '=') :
    readFilter (u ++ ['@', '.'] ++ names ++ op.text.toList ++ r) =
      (readLiteral r).map fun (literal, rest) =>
        (.filter (((Text.splitAt '.' names).map Text.strip).map String.ofList) op literal, rest) := by
  -- the names end where the comparator starts
  have hin : ∀ c ∈ names, (!endsProperty c) = true := by
    intro c hc
    rw [endsProperty_eq_false_iff.mpr (hnames c hc), Bool.not_false]
  have hout := comparator_head op r
  have hfront : Text.stripFront (u ++ ['@', '.'] ++ names ++ op.text.toList ++ r)
      = '@' :: '.' :: (names ++ (op.text.toList ++ r)) := by
    have hassoc : u ++ ['@', '.'] ++ names ++ op.text.toList ++ r
        = u ++ '@' :: '.' :: (names ++ (op.text.toList ++ r)) := by simp
    rw [hassoc]
    exact Text.stripFront_append hu (.cons (by decide) _)
  have hafter : Text.after? ['@', '.'] ('@' :: '.' :: (names ++ (op.text.toList ++ r)))
      = some (names ++ (op.text.toList ++ r)) := Text.after?_eq_some_iff.mpr rfl
  have hany : ((Text.splitAt '.' names).map Text.strip).any List.isEmpty = false := by
    rw [List.any_eq_false]
    intro part hpart
    simpa using hne part hpart
  simp only [readFilter, hfront, hafter, Text.takeWhile_append_of_stop hin hout,
    Text.dropWhile_append_of_stop hin hout, hany, Bool.false_eq_true, ↓reduceIte,
    readComparator_append hop]
  cases readLiteral r <;> rfl

/-- A filter on a property with a name in each of its parts. -/
theorem readFilter_property {u names r : List Char} {property : List String} {op : Json.Comparator}
    (hu : Text.Blanks u) (hnames : ∀ c ∈ names, c ∉ ['=', '!', '<', '>'])
    (hsplit : (Text.splitAt '.' names).map Text.strip = property.map String.toList)
    (hne : "" ∉ property) (hop : op = .lt ∨ op = .gt → r.head? ≠ some '=') :
    readFilter (u ++ ['@', '.'] ++ names ++ op.text.toList ++ r) =
      (readLiteral r).map fun (literal, rest) => (.filter property op literal, rest) := by
  have hparts : ∀ part ∈ (Text.splitAt '.' names).map Text.strip, part ≠ [] := by
    intro part hpart hnil
    rw [hsplit] at hpart
    obtain ⟨name, hname, rfl⟩ := List.mem_map.mp hpart
    exact hne (String.toList_eq_nil_iff.mp hnil ▸ hname)
  have hid : String.ofList ∘ String.toList = id := funext fun _ => String.ofList_toList
  rw [readFilter_append hu hnames hparts hop, hsplit, List.map_map, hid, List.map_id]

/-- A filter that is read is spelled. -/
theorem readFilter_split {cs r : List Char} {s : Segment} (h : readFilter cs = .ok (s, r)) :
    ∃ a, cs = a ++ r ∧ Segment.Spelling s (['[', '?', '('] ++ a) := by
  obtain ⟨u, hu, hcs⟩ := Text.stripFront_split cs
  unfold readFilter at h
  dsimp only at h
  split at h
  · cases h
  · next body ha =>
    rw [Text.after?_eq_some_iff.mp ha] at hcs
    have hbody := List.takeWhile_append_dropWhile (p := (!endsProperty ·)) (l := body)
    have hnames : ∀ c ∈ body.takeWhile (!endsProperty ·), c ∉ ['=', '!', '<', '>'] := by
      intro c hc
      have hstop := Text.of_mem_takeWhile (p := (!endsProperty ·)) hc
      exact endsProperty_eq_false_iff.mp (by simpa using hstop)
    -- from here on the names and the rest are any two texts with these two facts
    generalize body.takeWhile (!endsProperty ·) = names at h hbody hnames
    generalize body.dropWhile (!endsProperty ·) = tail at h hbody
    split at h
    · cases h
    · next hany =>
      split at h
      · cases h
      · next op rest hc =>
        obtain ⟨rfl, hop⟩ := readComparator_split hc
        split at h
        · cases h
        · next literal rest' hl =>
          cases h
          obtain ⟨lit, rfl, hspell⟩ := readLiteral_split hl
          refine ⟨u ++ ['@', '.'] ++ names ++ op.text.toList ++ lit ++ [')', ']'], ?_, ?_⟩
          · rw [hcs, ← hbody]
            simp
          · have hsplit : (Text.splitAt '.' names).map Text.strip
                = (((Text.splitAt '.' names).map Text.strip).map String.ofList).map String.toList := by
              simp [Function.comp_def]
            have hne : "" ∉ ((Text.splitAt '.' names).map Text.strip).map String.ofList := by
              intro hmem
              obtain ⟨part, hpart, he⟩ := List.mem_map.mp hmem
              have hnil : part = [] := by simpa using he
              exact hany (List.any_eq_true.mpr ⟨part, hpart, by simp [hnil]⟩)
            have hhead : op = .lt ∨ op = .gt → lit.head? ≠ some '=' := by
              intro hlt
              have hhead := hop hlt
              cases lit with
              | nil => simp
              | cons c lit => simpa using hhead
            simpa using Segment.Spelling.filter hu hnames hsplit hne hhead hspell

/-! ## Steps -/

/-- A text that is over, or goes on with a step. -/
def AtStep (cs : List Char) : Prop := ∀ c ∈ cs.head?, c = '.' ∨ c = '['

/-- A name goes on up to the next step. -/
theorem readField_append {name r : List Char} (hne : name ≠ [])
    (hname : ∀ c ∈ name, c ∉ ['.', '[', ']', '*']) (hr : AtStep r) :
    readField (name ++ r) = .ok (.field (String.ofList name), r) := by
  have hin : ∀ c ∈ name, (!endsName c) = true := by
    intro c hc
    rw [endsName_eq_false_iff.mpr (hname c hc), Bool.not_false]
  have hout : ∀ c ∈ r.head?, (!endsName c) = false := by
    intro c hc
    rcases hr c hc with rfl | rfl <;> rfl
  have hempty : name.isEmpty = false := List.isEmpty_eq_false_iff.mpr hne
  simp only [readField, Text.takeWhile_append_of_stop hin hout,
    Text.dropWhile_append_of_stop hin hout, hempty, Bool.false_eq_true, ↓reduceIte]
  cases hhead : r.head? with
  | none => rfl
  | some c => rcases hr c hhead with rfl | rfl <;> rfl

/-- A field that is read is spelled. -/
theorem readField_split {cs r : List Char} {s : Segment} (h : readField cs = .ok (s, r)) :
    ∃ name, cs = name ++ r ∧ Segment.Spelling s ('.' :: name) := by
  have hcs := List.takeWhile_append_dropWhile (p := (!endsName ·)) (l := cs)
  have hname : ∀ c ∈ cs.takeWhile (!endsName ·), c ∉ ['.', '[', ']', '*'] := by
    intro c hc
    have hstop := Text.of_mem_takeWhile (p := (!endsName ·)) hc
    exact endsName_eq_false_iff.mp (by simpa using hstop)
  unfold readField at h
  dsimp only at h
  split at h
  · cases h
  · next hempty =>
    split at h
    · cases h
    · cases h
    · cases h
      exact ⟨_, hcs.symm, .field (by simpa using hempty) hname⟩

/-- The digits between brackets are an index, or too many for one. -/
theorem readIndex_append {digits : List Char} (hne : digits ≠ [])
    (hdigits : ∀ c ∈ digits, c.isDigit = true) (r : List Char) :
    readIndex ('[' :: digits ++ [']'] ++ r) =
      match readDigits digits with
      | .ok n => .ok (.index n, r)
      | .error f => .error (.digits f) := by
  have hout : ∀ c ∈ (']' :: r).head?, c.isDigit = false := by simp
  have hbody : ('[' :: digits ++ [']'] ++ r).drop 1 = digits ++ ']' :: r := by simp
  have hempty : digits.isEmpty = false := List.isEmpty_eq_false_iff.mpr hne
  cases hread : readDigits digits with
  | ok n =>
    simp only [readIndex, hbody, Text.takeWhile_append_of_stop hdigits hout,
      Text.dropWhile_append_of_stop hdigits hout, hempty, hread]
  | error f =>
    simp only [readIndex, hbody, Text.takeWhile_append_of_stop hdigits hout,
      Text.dropWhile_append_of_stop hdigits hout, hempty, hread]

/-- An index in brackets: its digits and what reading them gives. -/
theorem readIndex_split {t r : List Char} {s : Segment} (h : readIndex ('[' :: t) = .ok (s, r)) :
    ∃ a, '[' :: t = a ++ r ∧ Segment.Spelling s a := by
  have ht := List.takeWhile_append_dropWhile (p := Char.isDigit) (l := t)
  have hdigits : ∀ c ∈ t.takeWhile Char.isDigit, c.isDigit = true :=
    fun c hc => Text.of_mem_takeWhile hc
  unfold readIndex at h
  simp only [List.drop_succ_cons, List.drop_zero] at h
  generalize t.takeWhile Char.isDigit = digits at h ht hdigits
  split at h
  · next hempty hrest =>
    rw [hrest] at ht
    split at h
    · next n hn =>
      cases h
      have hlen : digits.length ≤ digitLimit := readDigits_ok_iff.mp ⟨n, hn⟩
      rw [readDigits_eq_ok hdigits hlen, Except.ok.injEq] at hn
      subst hn
      refine ⟨'[' :: digits ++ [']'], by rw [← ht]; simp, ?_⟩
      exact .index (List.isEmpty_eq_false_iff.mp hempty) hdigits hlen
    · cases h
  · cases h

/-- A bracket of digits is no wildcard and no filter. -/
theorem readBracket_digits {digits : List Char} (hne : digits ≠ [])
    (hdigits : ∀ c ∈ digits, c.isDigit = true) (r : List Char) :
    readBracket ('[' :: digits ++ [']'] ++ r) = readIndex ('[' :: digits ++ [']'] ++ r) := by
  obtain ⟨d, ds, rfl⟩ := List.exists_cons_of_ne_nil hne
  have hd : d.isDigit = true := hdigits d List.mem_cons_self
  have hstar : '*' ≠ d := by rintro rfl; cases hd
  have hmark : '?' ≠ d := by rintro rfl; cases hd
  simp [readBracket, Text.after?, hstar, hmark]

/-- A star between brackets is a wildcard. -/
theorem readBracket_wildcard (r : List Char) :
    readBracket (['[', '*', ']'] ++ r) = .ok (.wildcard, r) := rfl

/-- A question mark opens a filter. -/
theorem readBracket_filter (r : List Char) :
    readBracket (['[', '?', '('] ++ r) = readFilter r := rfl

/-- A bracket opens an index, a wildcard or a filter. -/
theorem readSegment_bracket (r : List Char) : readSegment ('[' :: r) = readBracket ('[' :: r) := by
  rw [readSegment, if_neg (by decide), if_pos rfl]

/-- A step is read off the front of a text by its spelling; behind a field another step or the end
has to follow. -/
theorem readSegment_append {s : Segment} {a r : List Char} (h : s.Spelling a)
    (hr : s.isField = true → AtStep r) : readSegment (a ++ r) = .ok (s, r) := by
  cases h with
  | field hne hname =>
    rw [List.cons_append, readSegment, if_pos rfl]
    exact readField_append hne hname (hr rfl)
  | index hne hdigits hlen =>
    have hbracket := readBracket_digits hne hdigits r
    rw [readIndex_append hne hdigits, readDigits_eq_ok hdigits hlen] at hbracket
    rw [List.cons_append, List.cons_append] at hbracket ⊢
    rw [readSegment_bracket, hbracket]
  | wildcard => exact (readSegment_bracket _).trans (readBracket_wildcard r)
  | @filter property op literal u names lit hu hnames hsplit hne hop hlit =>
    have hassoc : ['[', '?', '('] ++ u ++ ['@', '.'] ++ names ++ op.text.toList ++ lit ++ [')', ']']
        ++ r = ['[', '?', '('] ++
          (u ++ ['@', '.'] ++ names ++ op.text.toList ++ (lit ++ [')', ']'] ++ r)) := by
      simp
    -- without a literal the comparator would meet the closing bracket
    have hhead : op = .lt ∨ op = .gt → (lit ++ [')', ']'] ++ r).head? ≠ some '=' := by
      intro hlt
      cases lit with
      | nil => simp
      | cons c lit => simpa using hop hlt
    rw [hassoc, List.cons_append, readSegment_bracket, ← List.cons_append]
    rw [readBracket_filter, readFilter_property hu hnames hsplit hne hhead, readLiteral_append hlit]
    rfl

/-- A step that is read is spelled. -/
theorem readSegment_split {s : Segment} {cs r : List Char} (h : readSegment cs = .ok (s, r)) :
    ∃ a, cs = a ++ r ∧ s.Spelling a := by
  unfold readSegment at h
  split at h
  · cases h
  · next c t =>
    split at h
    · next hdot =>
      obtain ⟨name, rfl, hspell⟩ := readField_split h
      exact ⟨'.' :: name, by rw [hdot, List.cons_append], hspell⟩
    · split at h
      · next hopen =>
        subst hopen
        unfold readBracket at h
        split at h
        · next rest ha =>
          cases h
          exact ⟨_, Text.after?_eq_some_iff.mp ha, .wildcard⟩
        · split at h
          · next rest ha =>
            obtain ⟨a, rfl, hspell⟩ := readFilter_split h
            exact ⟨_, by rw [Text.after?_eq_some_iff.mp ha, List.append_assoc], hspell⟩
          · exact readIndex_split h
      · cases h

end PathReader

end DocDesk.Query
