import DocDesk.Proofs.Query.Fault
import DocDesk.Proofs.Query.Grammar
import DocDesk.Query.Session

/-!
# Queries that do not return

A run of more than `digitLimit` digits is refused by the reading of integers, and that refusal is no
refusal of the path.  It comes from an index in brackets (`OverlongIndex`) or from a name that is
taken as the index of an array on the way (`Stuck`).  Nor is it one that a filter meets an array nested too
deep to be compared (`Overdeep`), which takes a document nested beyond `formLimit`.  Everything else
returns.

Main statement: `query_returns_iff`.
-/

namespace DocDesk.Query

/-- Behind readable steps the text has an index with the given number of digits, which is over the
limit. -/
inductive OverlongIndex : List Char → Nat → Prop where
  | here {digits : List Char} (hdigits : ∀ c ∈ digits, c.isDigit = true)
    (hlen : digitLimit < digits.length) (r : List Char) :
    OverlongIndex ('[' :: digits ++ [']'] ++ r) digits.length
  | behind {s : Segment} {a cs : List Char} {n : Nat} (hs : s.isFilter = false) (h : s.Spelling a)
    (hrest : OverlongIndex cs n) : OverlongIndex (a ++ cs) n

/-- A path text with an index over the limit, met before any other fault. -/
def OverlongPath (p : String) : Prop :=
  ∃ cs n, Text.strip p.toList = '$' :: cs ∧ OverlongIndex cs n

/-- An overlong index starts with a bracket. -/
theorem OverlongIndex.atStep {cs : List Char} {n : Nat} (h : OverlongIndex cs n) :
    PathReader.AtStep cs := by
  cases h with
  | here => simp [PathReader.AtStep]
  | behind _ h _ => exact h.atStep _

namespace PathReader

/-! ## Parts of a filter have no index -/

/-- A text between quotes does not fail for its digits. -/
theorem readQuoted_ne_digits {quote : Char} {cs : List Char} {f : DigitFault} :
    readQuoted quote cs ≠ .error (.digits f) := by
  fun_induction readQuoted quote cs with
  | case1 => simp
  | case2 => simp
  | case3 => simp
  | case4 => simp
  | case5 d t g hg ih => rw [hg] at ih; exact ih
  | case6 => simp
  | case7 => simp
  | case8 c d t _ _ g hg ih => rw [hg] at ih; exact ih

/-- Nor does a literal. -/
theorem readLiteral_ne_digits {cs : List Char} {f : DigitFault} :
    readLiteral cs ≠ .error (.digits f) := by
  intro h
  unfold readLiteral fail at h
  dsimp only at h
  split at h
  · cases h
  · split at h
    · split at h
      · next g hg => cases h; exact readQuoted_ne_digits hg
      · split at h <;> cases h
    · split at h
      · cases h
      · split at h <;> cases h

/-- Nor does a comparison. -/
theorem readComparator_ne_digits {cs : List Char} {f : DigitFault} :
    readComparator cs ≠ .error (.digits f) := by
  intro h
  unfold readComparator fail at h
  split at h
  · cases h
  · cases h
  · split at h <;> cases h
  · split at h <;> cases h
  · cases h

/-- Nor does a filter. -/
theorem readFilter_ne_digits {cs : List Char} {f : DigitFault} :
    readFilter cs ≠ .error (.digits f) := by
  intro h
  unfold readFilter fail at h
  dsimp only at h
  split at h
  · cases h
  · split at h
    · cases h
    · split at h
      · next g hg => cases h; exact readComparator_ne_digits hg
      · split at h
        · next g hg => cases h; exact readLiteral_ne_digits hg
        · cases h

/-! ## Steps with an index over the limit -/

/-- An index with too many digits fails for them. -/
theorem readSegment_overlong {digits : List Char} (hdigits : ∀ c ∈ digits, c.isDigit = true)
    (hlen : digitLimit < digits.length) (r : List Char) :
    readSegment ('[' :: digits ++ [']'] ++ r) = .error (.digits (.unreadable digits.length)) := by
  have hne := ne_nil_of_digitLimit_lt hlen
  have hbracket := readBracket_digits hne hdigits r
  rw [readIndex_append hne hdigits, readDigits_eq_error_iff.mpr ⟨hlen, rfl⟩] at hbracket
  rw [List.cons_append, List.cons_append] at hbracket ⊢
  rw [readSegment_bracket, hbracket]

/-- Reading one step gives up on digits at an index over the limit only. -/
theorem readSegment_digits_split {cs : List Char} {f : DigitFault}
    (h : readSegment cs = .error (.digits f)) :
    ∃ digits r, cs = '[' :: digits ++ [']'] ++ r ∧ (∀ c ∈ digits, c.isDigit = true) ∧
      digitLimit < digits.length ∧ f = .unreadable digits.length := by
  unfold readSegment fail at h
  split at h
  · cases h
  · next c t =>
    split at h
    · unfold readField fail at h
      dsimp only at h
      split at h
      · cases h
      · split at h <;> cases h
    · split at h
      · next hopen =>
        subst hopen
        unfold readBracket at h
        split at h
        · cases h
        · split at h
          · exact absurd h readFilter_ne_digits
          -- of all readers of a step only that of an index counts digits
          · have ht := List.takeWhile_append_dropWhile (p := Char.isDigit) (l := t)
            have hdigits : ∀ c ∈ t.takeWhile Char.isDigit, c.isDigit = true :=
              fun c hc => Text.of_mem_takeWhile hc
            unfold readIndex fail at h
            simp only [List.drop_succ_cons, List.drop_zero] at h
            generalize t.takeWhile Char.isDigit = digits at h ht hdigits
            split at h
            · next r hempty hrest =>
              split at h
              · cases h
              · next g hg =>
                cases h
                obtain ⟨hlen, rfl⟩ := readDigits_eq_error_iff.mp hg
                rw [hrest] at ht
                exact ⟨digits, r, by rw [← ht]; simp, hdigits, hlen, rfl⟩
            · cases h
      · cases h

/-- Reading steps gives up on digits exactly at an index over the limit. -/
theorem readSegments_eq_digits_iff {cs : List Char} {f : DigitFault} :
    readSegments cs = .error (.digits f) ↔ ∃ n, OverlongIndex cs n ∧ f = .unreadable n := by
  constructor
  · -- along the reading: the fault is that of the front step, or it comes from behind that step
    intro h
    fun_induction readSegments cs with
    | case1 => cases h
    | case2 cs hcs g hg =>
      cases h
      obtain ⟨digits, r, rfl, hdigits, hlen, rfl⟩ := readSegment_digits_split hg
      exact ⟨_, .here hdigits hlen r, rfl⟩
    | case3 => cases h
    | case4 => cases h
    | case5 cs hcs s r hs hfilter g hrest ih =>
      cases h
      obtain ⟨a, rfl, hspell⟩ := readSegment_split hs
      obtain ⟨n, hover, rfl⟩ := ih hrest
      exact ⟨n, .behind (Bool.eq_false_iff.mpr hfilter) hspell hover, rfl⟩
  · rintro ⟨n, h, rfl⟩
    induction h with
    | here hdigits hlen r =>
      exact readSegments_fault (by simp) (readSegment_overlong hdigits hlen r)
    | @behind s a cs n hs h hrest ih =>
      exact readSegments_step_fault (readSegment_append h fun _ => hrest.atStep) hs ih

end PathReader

/-- Reading a path gives up on digits exactly at an index over the limit. -/
theorem parsePath_eq_digits_iff {p : String} :
    (∃ f, parsePath p = .error (.digits f)) ↔ OverlongPath p := by
  have hparse : ∀ f, parsePath p = .error (.digits f) ↔
      PathReader.readPath (Text.strip p.toList) = .error (.digits f) := by
    intro f
    simp only [parsePath]
    split
    · next h => simp [h]
    · next h => simp [h]
    · next h => simp [h]
  constructor
  · rintro ⟨f, h⟩
    rw [hparse] at h
    unfold PathReader.readPath at h
    split at h
    · next r hr =>
      split at h
      · next g hg =>
        cases h
        obtain ⟨n, hover, -⟩ := PathReader.readSegments_eq_digits_iff.mp hg
        exact ⟨r, n, hr, hover⟩
      · split at h <;> cases h
    · cases h
  · rintro ⟨cs, n, hcs, hover⟩
    refine ⟨.unreadable n, ?_⟩
    rw [hparse, hcs]
    simp only [PathReader.readPath, PathReader.readSegments_eq_digits_iff.mpr ⟨n, hover, rfl⟩]

/-! ## Queries -/

/-- Evaluating a path text breaks off exactly at an index over the limit, where the way gets stuck and where
it meets what is nested too deep. -/
theorem evaluate_eq_error_iff {doc : Json} {p : String} :
    (∃ f, evaluate doc p = .error f) ↔ OverlongPath p ∨
      ∃ path, parsePath p = .ok path ∧ (Stuck doc path.segments ∨ Overdeep doc path.segments) := by
  rw [← parsePath_eq_digits_iff]
  cases hp : parsePath p with
  | error f =>
    cases f with
    | malformed e => simp [evaluate_of_malformed hp]
    | digits f => simp [evaluate, evaluateValue, pathOfValue, hp]
  | ok path =>
    simp only [evaluate, evaluateValue, pathOfValue, hp, Path.evaluate, walk_eq_places,
      ← places_eq_error_iff]
    cases h : places doc path.segments <;> simp [Except.map, h]

/-- Blanks around a query do not matter. -/
theorem evaluate_stripped (doc : Json) (p : String) :
    evaluate doc (Text.stripped p) = evaluate doc p := by
  have hstrip : Text.strip (Text.stripped p).toList = Text.strip p.toList := by
    rw [Text.stripped, String.toList_ofList, Text.strip_strip]
  simp only [evaluate, evaluateValue, pathOfValue, parsePath, hstrip]

/-- A step succeeds exactly if it has no fault. -/
theorem exists_ok_iff {ε α : Type} {r : Except ε α} : (∃ a, r = .ok a) ↔ ¬ ∃ e, r = .error e := by
  cases r <;> simp

/-- Evaluating a path text ends well exactly if no numeral over the limit is taken as an index and nothing
that is nested too deep is compared. -/
theorem evaluate_eq_ok_iff {doc : Json} {p : String} :
    (∃ found, evaluate doc p = .ok found) ↔ ¬ OverlongPath p ∧ ∀ path, parsePath p = .ok path →
      ¬ Stuck doc path.segments ∧ ¬ Overdeep doc path.segments := by
  rw [exists_ok_iff, evaluate_eq_error_iff]
  simp

/-- A session fails on a query exactly if neither input is blank, the document can be read and
evaluating the query in it fails. -/
theorem execute_eq_error_iff {s : Session} {now : Timestamp} {json query : Option String} :
    (∃ f, s.execute now json query = .error f) ↔
      Session.isBlankInput json = false ∧ Session.isBlankInput query = false ∧
        ∃ doc, Json.parse? json = .ok doc ∧ ∃ f, evaluate doc (query.getD "") = .error f := by
  have hexecute : (∃ f, s.execute now json query = .error f) ↔
      ∃ f, Session.outcome json query = .error f := by
    unfold Session.execute
    cases Session.outcome json query <;> simp [bind, Except.bind]
  rw [hexecute]
  unfold Session.outcome
  -- a blank input ends the query before the document is read
  split
  · next hblank =>
    rw [Bool.or_eq_true] at hblank
    simp only [reduceCtorEq, exists_false, false_iff]
    rintro ⟨hjson, hquery, -⟩
    rcases hblank with h | h <;> simp_all
  · next hblank =>
    simp only [Bool.or_eq_true, not_or, Bool.not_eq_true] at hblank
    cases hparse : Json.parse? json with
    | error e => simp
    | ok doc =>
      simp only [hblank, true_and, Except.ok.injEq, exists_eq_left', evaluate_stripped]
      cases evaluate doc (query.getD "") with
      | error f => simp [bind, Except.bind]
      | ok found => cases found <;> simp [bind, Except.bind]

section Digits

variable {digits : List Char} (hdigits : ∀ c ∈ digits, c.isDigit = true)
  (hlen : digitLimit < digits.length)

include hdigits hlen

/-- A path with such an index fails for its digits. -/
theorem parsePath_overlong_index :
    parsePath (String.ofList ('$' :: '[' :: digits ++ [']']))
      = .error (.digits (.unreadable digits.length)) := by
  have htrim : Text.Trimmed ('$' :: '[' :: digits ++ [']']) :=
    ⟨.cons (by decide) _, .concat (by decide) _⟩
  have hover := OverlongIndex.here hdigits hlen []
  rw [List.append_nil] at hover
  have hread := PathReader.readSegments_eq_digits_iff.mpr ⟨_, hover, rfl⟩
  rw [parsePath, String.toList_ofList, Text.strip_of_trimmed htrim]
  simp only [List.cons_append] at hread
  simp only [List.cons_append, PathReader.readPath, hread]

/-- So does evaluating it. -/
theorem evaluate_overlong_index (doc : Json) :
    evaluate doc (String.ofList ('$' :: '[' :: digits ++ [']']))
      = .error (.digits (.unreadable digits.length)) := by
  simp only [evaluate, evaluateValue, pathOfValue, parsePath_overlong_index hdigits hlen]

/-- So does looking up a name of too many digits in an array. -/
theorem evaluate_overlong_name (items : List Json) :
    evaluate (.arr items) (String.ofList ('$' :: '.' :: digits))
      = .error (.digits (.unreadable digits.length)) := by
  have hne := ne_nil_of_digitLimit_lt hlen
  have hname : ∀ c ∈ digits, c ∉ ['.', '[', ']', '*'] := by
    intro c hc hstop
    have hdigit := hdigits c hc
    simp only [List.mem_cons, List.not_mem_nil, or_false] at hstop
    rcases hstop with rfl | rfl | rfl | rfl <;> cases hdigit
  have htrim : Text.Trimmed ('$' :: '.' :: digits) := by
    refine ⟨.cons (by decide) _, (Text.flushBack_append (a := ['$', '.']) hne).mpr ?_⟩
    intro c hc
    exact Text.isBlank_of_isDigit (hdigits c (List.mem_of_getLast? hc))
  have hspelled : Spelled [.field (String.ofList digits)] ('.' :: digits ++ []) :=
    .cons rfl (.field hne hname) .nil
  rw [List.append_nil] at hspelled
  have hparse : parsePath (String.ofList ('$' :: '.' :: digits))
      = .ok ⟨[.field (String.ofList digits)]⟩ := by
    rw [parsePath_eq_ok_iff_readPath, String.toList_ofList, Text.strip_of_trimmed htrim]
    exact PathReader.readPath_eq_ok_iff.mpr ⟨_, rfl, hspelled, .inl (by simp [Segment.isConcrete])⟩
  have hindex : isIndexName (String.ofList digits) = true := by
    simp only [isIndexName, String.toList_ofList, Bool.and_eq_true, Bool.not_eq_true',
      List.isEmpty_eq_false_iff, List.all_eq_true]
    exact ⟨hne, hdigits⟩
  have hchild : child (.arr items) (String.ofList digits)
      = .error (.digits (.unreadable digits.length)) :=
    child_eq_error_iff.mpr ⟨⟨items, rfl⟩, hindex, by simpa using hlen, by simp⟩
  rw [evaluate_of_parsePath hparse]
  simp only [places, hchild, Except.map]

end Digits

/-- A numeral one digit over the limit. -/
def overlongDigits : List Char := List.replicate 4301 '1'

end DocDesk.Query
