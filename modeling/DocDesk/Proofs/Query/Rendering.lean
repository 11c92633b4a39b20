import DocDesk.Proofs.Number.Literal
import DocDesk.Proofs.Query.WrittenForm

/-!
# Written paths read back

The written form of a path is read back as the path, unless a text in one of its filters holds a
backslash.  A text is written with a backslash before each of its quotes and none before its
backslashes, so on the way back each of these takes a character away.

Main statements: `readLiteral_render_iff` and `parsePath_render_iff`.
-/

namespace DocDesk.Query

open PathReader

/-! ## Quoted texts -/

/-- Quotes escaped, a text without a backslash stands between quotes for itself. -/
theorem quotedBody_escape {s : List Char} (h : '\\' ∉ s) :
    QuotedBody '\'' (Text.replaceChar '\'' ['\\', '\''] s) s := by
  induction s with
  | nil => exact .nil
  | cons c s ih =>
    have hs := ih fun hmem => h (List.mem_cons_of_mem _ hmem)
    rw [Text.replaceChar] at hs ⊢
    rw [List.flatMap_cons]
    by_cases hc : c = '\''
    · rw [if_pos hc, hc]
      exact .escaped '\'' hs
    · rw [if_neg hc]
      exact .plain (fun he => h (he ▸ List.mem_cons_self)) hc hs

/-- Between quotes each quote and each backslash of a text takes two characters. -/
theorem QuotedBody.length_le {quote : Char} {body s : List Char} (h : QuotedBody quote body s)
    (hquote : quote ≠ '\\') : s.length + s.count quote + s.count '\\' ≤ body.length := by
  induction h with
  | nil => simp
  | escaped c h ih =>
    -- the escaped character may be the quote or a backslash, but not both
    by_cases hc : c = quote
    · rw [hc, List.count_cons_self, List.count_cons_of_ne hquote]
      simp only [List.length_cons]
      omega
    · rw [List.count_cons_of_ne hc, List.count_cons]
      simp only [List.length_cons]
      split
      · omega
      · omega
  | plain hslash hne h ih =>
    rw [List.count_cons_of_ne hne, List.count_cons_of_ne hslash]
    simp only [List.length_cons]
    omega

/-- Escaping adds one character for each quote. -/
theorem length_escape (s : List Char) :
    (Text.replaceChar '\'' ['\\', '\''] s).length = s.length + s.count '\'' := by
  induction s with
  | nil => rfl
  | cons c s ih =>
    rw [Text.replaceChar] at ih ⊢
    rw [List.flatMap_cons, List.length_append, ih]
    by_cases hc : c = '\''
    · rw [if_pos hc, hc, List.count_cons_self]
      simp only [List.length_cons, List.length_nil]
      omega
    · rw [if_neg hc, List.count_cons_of_ne hc]
      simp only [List.length_cons, List.length_nil]
      omega

/-- A text with a backslash is too long for what its quotes enclose when it is written. -/
theorem notMem_of_quotedBody {s body tail r : List Char} (h : QuotedBody '\'' body s)
    (hcs : Text.replaceChar '\'' ['\\', '\''] s ++ '\'' :: tail = body ++ '\'' :: r)
    (htail : '\'' ∉ tail) : '\\' ∉ s := by
  intro hmem
  have hcount : 0 < s.count '\\' := List.count_pos_iff.mpr hmem
  have hbody := h.length_le (by decide)
  have hwritten := length_escape s
  rcases List.append_eq_append_iff.mp hcs with ⟨more, hlong, hrest⟩ | ⟨more, hshort, -⟩
  · -- the quote that closes the body stands behind the one that was written to close it
    cases more with
    | nil =>
      rw [hlong, List.append_nil] at hbody
      omega
    | cons c more =>
      rw [List.cons_append, List.cons.injEq] at hrest
      exact htail (by simp [hrest.2])
  · rw [hshort, List.length_append] at hwritten
    omega

/-! ## Literals -/

/-- Without quotes and brackets in it, what a text spells it spells among blanks behind a comparator
too. -/
theorem literalSpelling_of_trimmed {l : Literal} {u cs v : List Char} (hu : Text.Blanks u)
    (htrim : Text.Trimmed cs) (hne : cs ≠ []) (hv : Text.Blanks v)
    (hcs : ∀ d ∈ ['\'', '"', ')'], d ∉ cs) (h : BareSpelling l cs) :
    LiteralSpelling l (u ++ cs ++ v) := by
  obtain ⟨c, t, rfl⟩ := List.exists_cons_of_ne_nil hne
  have hsingle : c ≠ '\'' := by
    rintro rfl
    exact hcs '\'' (by simp) List.mem_cons_self
  have hdouble : c ≠ '"' := by
    rintro rfl
    exact hcs '"' (by simp) List.mem_cons_self
  have hclose : ¬ [')', ']'] <:+: c :: t ++ v := by
    intro hin
    rcases List.mem_append.mp (hin.subset List.mem_cons_self) with hmem | hmem
    · exact hcs ')' (by simp) hmem
    · exact hv.notMem (by decide) hmem
  have hstrip := Text.strip_append_of_trimmed .nil htrim hne hv
  rw [List.nil_append] at hstrip
  rw [List.cons_append] at hstrip hclose
  rw [List.append_assoc, List.cons_append]
  refine .bare hu (htrim.1 c rfl) hsingle hdouble hclose ?_
  rwa [hstrip]

/-- Letters, digits, points and signs stand between a comparator and `)]` for what they spell. -/
theorem literalSpelling_of_isNumberChar {l : Literal} {cs : List Char} (hne : cs ≠ [])
    (hcs : ∀ c ∈ cs, Json.isNumberChar c = true) (h : BareSpelling l cs) : LiteralSpelling l cs := by
  have hnot : ∀ d ∈ ['\'', '"', ')'], d ∉ cs := by
    intro d hd hmem
    have hchar := hcs d hmem
    simp only [List.mem_cons, List.not_mem_nil, or_false] at hd
    rcases hd with rfl | rfl | rfl <;> cases hchar
  have hspelled := literalSpelling_of_trimmed .nil (Json.trimmed_of_isNumberChar hcs) hne .nil hnot h
  rwa [List.append_nil] at hspelled

/-- The written form of a literal spells it if it is no text with a backslash. -/
theorem LiteralSpelling.render {l : Literal} {lit : List Char} (h : LiteralSpelling l lit)
    (hslash : ∀ s, l = .text s → '\\' ∉ s.toList) : LiteralSpelling l l.render := by
  cases l with
  | text s =>
    have hbody := quotedBody_escape (hslash s rfl)
    have hspelled := LiteralSpelling.quoted (.inl rfl) .nil hbody .nil
    rw [String.ofList_toList] at hspelled
    exact hspelled
  | bool b =>
    cases b with
    | true =>
      have hall : "true".toList.all Json.isNumberChar = true := by decide
      exact literalSpelling_of_isNumberChar (by decide) (List.all_eq_true.mp hall) .true
    | false =>
      have hall : "false".toList.all Json.isNumberChar = true := by decide
      exact literalSpelling_of_isNumberChar (by decide) (List.all_eq_true.mp hall) .false
  | int i =>
    cases h with
    | bare _ _ _ _ _ h =>
      cases h with
      | int h =>
        show LiteralSpelling (.int i) (Json.numberText (.ofInt i))
        exact literalSpelling_of_isNumberChar (Json.numberText_ne_nil _)
          (fun _ => Json.isNumberChar_of_mem)
          (.int (Json.numberLiteral?_numberText_int h))
  | float x =>
    cases h with
    | bare _ _ _ _ _ h =>
      cases h with
      | float h =>
        show LiteralSpelling (.float x) (Json.numberText x)
        exact literalSpelling_of_isNumberChar (Json.numberText_ne_nil _)
          (fun _ => Json.isNumberChar_of_mem)
          (.float (Json.numberLiteral?_numberText_float h))

/-- A front quote and the text behind it, found among blanks. -/
theorem blanks_eq_nil {u cs t : List Char} {c : Char} (hu : Text.Blanks u)
    (hc : Text.isBlank c = false) (h : c :: t = u ++ cs) : u = [] := by
  cases u with
  | nil => rfl
  | cons d u =>
    rw [List.cons_append, List.cons.injEq] at h
    rw [h.1, hu d List.mem_cons_self] at hc
    cases hc

/-- A text whose written form is read back as it holds no backslash. -/
theorem notMem_of_literalSpelling {s : String} {lit r : List Char}
    (h : LiteralSpelling (.text s) lit)
    (hcs : (Literal.text s).render ++ [')', ']'] = lit ++ [')', ']'] ++ r) : '\\' ∉ s.toList := by
  have hquote : Text.isBlank '\'' = false := by decide
  have hwritten : (Literal.text s).render ++ [')', ']'] =
      '\'' :: (Text.replaceChar '\'' ['\\', '\''] s.toList ++ '\'' :: [')', ']']) := by
    rw [Literal.render]
    simp
  rw [hwritten] at hcs
  generalize hlit : Literal.text s = l at h
  cases h with
  | @quoted quote u body s' v hq hu hbody hv =>
    cases hlit
    have hassoc : u ++ quote :: body ++ quote :: v ++ [')', ']'] ++ r
        = u ++ quote :: (body ++ quote :: (v ++ [')', ']'] ++ r)) := by simp
    rw [hassoc] at hcs
    obtain rfl := blanks_eq_nil hu hquote hcs
    rw [List.nil_append, List.cons.injEq] at hcs
    obtain ⟨rfl, hcs⟩ := hcs
    rw [String.toList_ofList] at hcs ⊢
    exact notMem_of_quotedBody hbody hcs (by decide)
  | @bare _ c u raw hu hblank hsingle hdouble hclose hspell =>
    have hassoc : u ++ c :: raw ++ [')', ']'] ++ r = u ++ c :: (raw ++ [')', ']'] ++ r) := by simp
    rw [hassoc] at hcs
    obtain rfl := blanks_eq_nil hu hquote hcs
    rw [List.nil_append, List.cons.injEq] at hcs
    exact absurd hcs.1.symm hsingle

/-- A spelled literal is read back from its written form exactly if it is no text with a
backslash. -/
theorem readLiteral_render_iff {l : Literal} {lit : List Char} (h : LiteralSpelling l lit) :
    (∃ rest, readLiteral (l.render ++ [')', ']']) = .ok (l, rest)) ↔
      ∀ s, l = .text s → '\\' ∉ s.toList := by
  constructor
  · rintro ⟨rest, hread⟩ s rfl
    obtain ⟨lit, hcs, hspell⟩ := readLiteral_split hread
    exact notMem_of_literalSpelling hspell hcs
  · intro hslash
    have hread := readLiteral_append (h.render hslash) []
    rw [List.append_nil] at hread
    exact ⟨[], hread⟩

/-! ## Filters -/

/-- What the names of a filter are when they are written anew. -/
theorem Segment.Spelling.names {property : List String} {op : Json.Comparator} {literal : Literal}
    {a : List Char} (h : Segment.Spelling (.filter property op literal) a) :
    (∀ c ∈ Text.join ['.'] (property.map String.toList), c ∉ ['=', '!', '<', '>']) ∧
      (Text.splitAt '.' (Text.join ['.'] (property.map String.toList))).map Text.strip =
        property.map String.toList ∧ "" ∉ property := by
  cases h with
  | @filter _ _ _ u names lit hu hnames hsplit hne hop hlit =>
    -- a name is a part of what was spelled, without the blanks around it: there is no dot in it,
    -- and no comparator
    have hpart : ∀ part ∈ property.map String.toList,
        Text.strip part = part ∧ '.' ∉ part ∧ ∀ c ∈ part, c ∈ names := by
      intro part hpart
      rw [← hsplit] at hpart
      obtain ⟨raw, hraw, rfl⟩ := List.mem_map.mp hpart
      obtain ⟨u', v', -, -, hcut⟩ := Text.strip_split raw
      have hsub : ∀ c ∈ Text.strip raw, c ∈ raw := by
        intro c hc
        rw [hcut]
        simp [hc]
      refine ⟨Text.strip_strip raw, fun hdot => ?_, fun c hc => ?_⟩
      · exact Text.notMem_of_mem_splitAt hraw (hsub _ hdot)
      · exact Text.mem_of_mem_splitAt hraw (hsub c hc)
    have hparts : property.map String.toList ≠ [] := by
      rw [← hsplit]
      simp [Text.splitAt_ne_nil]
    refine ⟨fun c hc => ?_, ?_, hne⟩
    · rcases Text.mem_join hc with rfl | ⟨part, hmem, hc⟩
      · decide
      · exact hnames c ((hpart part hmem).2.2 c hc)
    · rw [Text.splitAt_join hparts fun part hmem => (hpart part hmem).2.1]
      exact (List.map_congr_left fun part hmem => (hpart part hmem).1).trans (List.map_id' _)

/-- No written literal starts with the end of a comparator. -/
theorem Literal.head_render (l : Literal) (r : List Char) : (l.render ++ r).head? ≠ some '=' := by
  have hnumber : ∀ x, (Json.numberText x ++ r).head? ≠ some '=' := by
    intro x h
    obtain ⟨c, t, hc⟩ := List.exists_cons_of_ne_nil (Json.numberText_ne_nil x)
    rw [hc, List.cons_append, List.head?_cons, Option.some.injEq] at h
    have hmem : c ∈ Json.numberText x := hc ▸ List.mem_cons_self
    have hchar := Json.isNumberChar_of_mem hmem
    rw [h] at hchar
    cases hchar
  cases l with
  | bool b => cases b <;> simp [render]
  | int i =>
    show (Json.numberText (.ofInt i) ++ r).head? ≠ some '='
    exact hnumber _
  | float x => exact hnumber x
  | text s => simp [render]

/-- A filter is read back from its written form as far as its literal is. -/
theorem readSegment_render_filter {property : List String} {op : Json.Comparator}
    {literal : Literal} {a : List Char} (h : Segment.Spelling (.filter property op literal) a) :
    readSegment (Segment.filter property op literal).render =
      (readLiteral (literal.render ++ [')', ']'])).map fun (l, rest) =>
        (.filter property op l, rest) := by
  obtain ⟨hnames, hsplit, hne⟩ := h.names
  have hassoc : (Segment.filter property op literal).render =
      ['[', '?', '('] ++ ([] ++ ['@', '.'] ++ Text.join ['.'] (property.map String.toList) ++
        op.text.toList ++ (literal.render ++ [')', ']'])) := by
    simp
  rw [hassoc, List.cons_append, readSegment_bracket, ← List.cons_append, readBracket_filter]
  exact readFilter_property .nil hnames hsplit hne fun _ => literal.head_render _

/-- A spelled filter is read back from its written form exactly if it has no text with a
backslash. -/
theorem readSegment_render_filter_iff {property : List String} {op : Json.Comparator}
    {literal : Literal} {a : List Char} (h : Segment.Spelling (.filter property op literal) a) :
    (∃ rest, readSegment (Segment.filter property op literal).render =
      .ok (.filter property op literal, rest)) ↔ ∀ s, literal = .text s → '\\' ∉ s.toList := by
  obtain ⟨lit, hlit⟩ : ∃ lit, LiteralSpelling literal lit := by
    cases h with
    | filter _ _ _ _ _ hlit => exact ⟨_, hlit⟩
  rw [← readLiteral_render_iff hlit, readSegment_render_filter h]
  cases readLiteral (literal.render ++ [')', ']']) with
  | error f => simp [Except.map]
  | ok result =>
    obtain ⟨l, rest⟩ := result
    simp [Except.map]

/-! ## Paths -/

/-- The steps of a path are read back from their written form exactly if no filter has a text with a
backslash. -/
theorem readSegments_render_iff {ss : List Segment} {t : List Char} (h : Spelled ss t) :
    (∃ rest, readSegments (ss.flatMap Segment.render) = .ok (ss, rest)) ↔
      ∀ property op s, Segment.filter property op (.text s) ∈ ss → '\\' ∉ s.toList := by
  -- a filter is the last step, so there alone the two sides have something to say
  induction h with
  | nil => simp [readSegments_nil]
  | @filter s a hs h ignored =>
    cases s with
    | filter property op literal =>
      rw [List.flatMap_cons, List.flatMap_nil, List.append_nil, readSegments_eq_filter_iff rfl,
        readSegment_render_filter_iff h]
      simp only [List.mem_singleton, Segment.filter.injEq]
      constructor
      · rintro hslash property' op' s ⟨-, -, hs⟩
        exact hslash s hs.symm
      · intro hslash s hs
        exact hslash property op s ⟨rfl, rfl, hs.symm⟩
    | _ => cases hs
  | @cons s ss a cs hs h hrest ih =>
    have hread := readSegment_append (h.render hs) fun _ => atStep_flatMap_render ss
    rw [List.flatMap_cons]
    have hne : ∀ property op w, Segment.filter property op (.text w) ≠ s := by
      rintro property op w rfl
      cases hs
    simp only [List.mem_cons, hne, false_or]
    rw [← ih]
    cases hrest : readSegments (ss.flatMap Segment.render) with
    | error f =>
      rw [readSegments_step_fault hread hs hrest]
      simp
    | ok result =>
      obtain ⟨ss', rest⟩ := result
      rw [readSegments_step hread hs hrest]
      simp

/-- The written form of a path is read back as the path exactly if no filter compares with a text that
holds a backslash. -/
theorem parsePath_render_iff {p : String} {path : Path} (h : parsePath p = .ok path) :
    parsePath path.render = .ok path ↔
      ∀ property op s, Segment.filter property op (.text s) ∈ path.segments → '\\' ∉ s.toList := by
  obtain ⟨ss⟩ := path
  obtain ⟨t, ht, hspelled, hshaped⟩ := readPath_eq_ok_iff.mp (parsePath_eq_ok_iff_readPath.mp h)
  have hfit : List.Forall₂ Segment.FitsPlace ss ss := List.forall₂_same.mpr fun _ _ _ => rfl
  have htrim := hspelled.trimmed_render (ht ▸ Text.trimmed_strip _) hfit
  -- the shape of the steps is known, so only reading them is left
  rw [← readSegments_render_iff hspelled, parsePath_eq_ok_iff_readPath, readPath_eq_ok_iff]
  rw [Path.render, String.toList_ofList, Text.strip_of_trimmed htrim]
  constructor
  · rintro ⟨cs, hcs, hwritten, -⟩
    rw [List.cons.injEq] at hcs
    rw [hcs.2]
    exact readSegments_of_spelled hwritten
  · rintro ⟨rest, hread⟩
    exact ⟨_, rfl, spelled_of_readSegments hread, hshaped⟩

/-- A path whose filter compares with a text. -/
def filterPath : Path := ⟨[.field "a", .filter ["b"] .eq (.text "x")]⟩

/-- A filter with blanks, read and written again. -/
theorem parsePath_render_spaced :
    parsePath " $.a[?( @. b == \"x\" )] " = .ok filterPath ∧
      parsePath filterPath.render = .ok filterPath := by
  have hparse : parsePath " $.a[?( @. b == \"x\" )] " = .ok filterPath := by cbv
  refine ⟨hparse, (parsePath_render_iff hparse).mpr ?_⟩
  intro property op s hmem
  have hs : s = "x" := by
    simp only [filterPath, List.mem_cons, List.not_mem_nil, or_false, Segment.filter.injEq,
      Literal.text.injEq, reduceCtorEq, false_or] at hmem
    exact hmem.2.2
  rw [hs]
  decide

end DocDesk.Query
