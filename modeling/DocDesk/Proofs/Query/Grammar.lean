import DocDesk.Proofs.Query.Spelling

/-!
# The grammar of query paths

A path text is `$` and the spellings of its steps; a filter may be followed by anything and is then
the last step.  `Spelled` says which texts spell which steps and `Shaped` which steps make a path.

Main statement: `parsePath_eq_ok_iff` (a text is read as a path exactly if it is one by this grammar).
-/

namespace DocDesk.Query

/-- The text spells the steps one after the other.  Whatever follows a filter is passed over. -/
inductive Spelled : List Segment → List Char → Prop where
  | nil : Spelled [] []
  | filter {s : Segment} {a : List Char} (hs : s.isFilter = true) (h : s.Spelling a)
    (ignored : List Char) : Spelled [s] (a ++ ignored)
  | cons {s : Segment} {ss : List Segment} {a cs : List Char} (hs : s.isFilter = false)
    (h : s.Spelling a) (hrest : Spelled ss cs) : Spelled (s :: ss) (a ++ cs)

/-- Steps that make a path: fields and indexes alone, or one wildcard or filter with nothing but
fields before and behind it. -/
def Shaped (ss : List Segment) : Prop :=
  (∀ s ∈ ss, s.isConcrete = true) ∨
    ∃ before fan behind, ss = before ++ fan :: behind ∧ fan.isFanOut = true ∧
      (∀ s ∈ before, s.isField = true) ∧ ∀ s ∈ behind, s.isField = true

/-! ## Facts of the grammar -/

/-- A step starts with a dot or a bracket, or the text is at its end. -/
theorem Segment.Spelling.atStep {s : Segment} {a : List Char} (h : s.Spelling a) (r : List Char) :
    PathReader.AtStep (a ++ r) := by
  cases h <;> simp [PathReader.AtStep]

/-- A step has characters. -/
theorem Segment.Spelling.ne_nil {s : Segment} {a : List Char} (h : s.Spelling a) : a ≠ [] := by
  cases h <;> simp

/-- So does the spelling of steps start, or it is empty. -/
theorem Spelled.atStep {ss : List Segment} {cs : List Char} (h : Spelled ss cs) :
    PathReader.AtStep cs := by
  cases h with
  | nil => simp [PathReader.AtStep]
  | filter _ h ignored => exact h.atStep ignored
  | cons _ h _ => exact h.atStep _

/-- A filter is no field. -/
theorem Segment.not_isField_of_isFilter {s : Segment} (h : s.isFilter = true) :
    s.isField = false := by
  cases s <;> simp_all [isFilter, isField]

/-- A field is concrete. -/
theorem Segment.isConcrete_of_isField {s : Segment} (h : s.isField = true) :
    s.isConcrete = true := by
  cases s <;> simp_all [isConcrete, isField]

namespace PathReader

/-! ## Reading steps -/

section Equations

variable {cs r : List Char} {s : Segment}

/-- Nothing is no step. -/
theorem readSegments_nil : readSegments [] = .ok ([], []) := by
  rw [readSegments]
  rfl

/-- A step is followed by others, unless it is a filter. -/
theorem readSegments_of_readSegment (h : readSegment cs = .ok (s, r)) :
    readSegments cs =
      if s.isFilter then .ok ([s], r)
      else match readSegments r with
        | .ok (ss, rest) => .ok (s :: ss, rest)
        | .error f => .error f := by
  have hne : cs.isEmpty = false := List.isEmpty_eq_false_iff.mpr (by rintro rfl; cases h)
  rw [readSegments, hne, if_neg Bool.false_ne_true]
  split
  · next f hf => rw [h] at hf; cases hf
  · next s' r' hok =>
    rw [h] at hok
    cases hok
    rfl

/-- A filter is the last step that is read. -/
theorem readSegments_filter (h : readSegment cs = .ok (s, r)) (hs : s.isFilter = true) :
    readSegments cs = .ok ([s], r) := by
  rw [readSegments_of_readSegment h, if_pos hs]

/-- Behind any other step the next ones are read. -/
theorem readSegments_step {ss : List Segment} {rest : List Char} (h : readSegment cs = .ok (s, r))
    (hs : s.isFilter = false) (hrest : readSegments r = .ok (ss, rest)) :
    readSegments cs = .ok (s :: ss, rest) := by
  rw [readSegments_of_readSegment h, if_neg (Bool.eq_false_iff.mp hs), hrest]

/-- A fault behind a step is the fault of the steps. -/
theorem readSegments_step_fault {f : Fault} (h : readSegment cs = .ok (s, r))
    (hs : s.isFilter = false) (hrest : readSegments r = .error f) : readSegments cs = .error f := by
  rw [readSegments_of_readSegment h, if_neg (Bool.eq_false_iff.mp hs), hrest]

/-- So is a fault in the first step. -/
theorem readSegments_fault {f : Fault} (hne : cs ≠ []) (h : readSegment cs = .error f) :
    readSegments cs = .error f := by
  rw [readSegments, List.isEmpty_eq_false_iff.mpr hne, if_neg Bool.false_ne_true]
  split
  · next g hg => rw [h] at hg; cases hg; rfl
  · next hok => rw [h] at hok; cases hok

/-- One filter alone is read where a filter is read. -/
theorem readSegments_eq_filter_iff (hs : s.isFilter = true) :
    (∃ rest, readSegments cs = .ok ([s], rest)) ↔ ∃ rest, readSegment cs = .ok (s, rest) := by
  constructor
  · rintro ⟨rest, h⟩
    have hne : cs ≠ [] := by
      rintro rfl
      rw [readSegments_nil] at h
      cases h
    cases hread : readSegment cs with
    | error f =>
      rw [readSegments_fault hne hread] at h
      cases h
    | ok result =>
      obtain ⟨s', r⟩ := result
      -- a first step that is no filter would stand in front of the filter that was read
      by_cases hs' : s'.isFilter = true
      · rw [readSegments_filter hread hs'] at h
        cases h
        exact ⟨_, rfl⟩
      · have hnot : s'.isFilter = false := Bool.eq_false_iff.mpr hs'
        cases hrest : readSegments r with
        | error f =>
          rw [readSegments_step_fault hread hnot hrest] at h
          cases h
        | ok result =>
          obtain ⟨ss, rest'⟩ := result
          rw [readSegments_step hread hnot hrest] at h
          cases h
          exact absurd hs hs'
  · rintro ⟨rest, h⟩
    exact ⟨rest, readSegments_filter h hs⟩

end Equations

/-- Steps that are spelled are read. -/
theorem readSegments_of_spelled {ss : List Segment} {cs : List Char} (h : Spelled ss cs) :
    ∃ rest, readSegments cs = .ok (ss, rest) := by
  induction h with
  | nil => exact ⟨[], readSegments_nil⟩
  | @filter s a hs h ignored =>
    refine ⟨ignored, readSegments_filter (readSegment_append h fun hfield => ?_) hs⟩
    rw [Segment.not_isField_of_isFilter hs] at hfield
    cases hfield
  | @cons s ss a cs hs h hrest ih =>
    obtain ⟨rest, hread⟩ := ih
    exact ⟨rest, readSegments_step (readSegment_append h fun _ => hrest.atStep) hs hread⟩

/-- Steps that are read are spelled. -/
theorem spelled_of_readSegments {ss : List Segment} {cs rest : List Char}
    (h : readSegments cs = .ok (ss, rest)) : Spelled ss cs := by
  -- the cases are the equations of the reader: the end, a fault, a filter, and a step before others
  fun_induction readSegments cs generalizing ss rest with
  | case1 cs hcs =>
    cases h
    rw [List.isEmpty_iff.mp hcs]
    exact .nil
  | case2 => cases h
  | case3 cs hcs s r hs hfilter =>
    cases h
    obtain ⟨a, rfl, hspell⟩ := readSegment_split hs
    exact .filter hfilter hspell _
  | case4 cs hcs s r hs hfilter ss' rest' hrest ih =>
    cases h
    obtain ⟨a, rfl, hspell⟩ := readSegment_split hs
    exact .cons (Bool.eq_false_iff.mpr hfilter) hspell (ih hrest)
  | case5 => cases h

/-! ## The shape of a path -/

/-- Steps have no fault of shape exactly if they are shaped. -/
theorem shapeFault?_eq_none_iff {ss : List Segment} : shapeFault? ss = none ↔ Shaped ss := by
  have hcut := List.takeWhile_append_dropWhile (p := Segment.isConcrete) (l := ss)
  have hbefore : ∀ s ∈ ss.takeWhile Segment.isConcrete, s.isConcrete = true :=
    fun s hs => Text.of_mem_takeWhile hs
  constructor
  · -- the first step that is not concrete is the fan-out, if there is one
    intro h
    unfold shapeFault? at h
    dsimp only at h
    split at h
    · next hdrop =>
      rw [hdrop, List.append_nil] at hcut
      exact .inl (hcut ▸ hbefore)
    · next fan behind hdrop =>
      rw [hdrop] at hcut
      have hfan : fan.isConcrete = false := Text.head?_dropWhile (by rw [hdrop]; rfl)
      refine .inr ⟨_, fan, behind, hcut.symm, by simp [Segment.isFanOut, hfan], ?_⟩
      split at h
      · cases h
      · split at h
        · cases h
        · next hfields =>
          split at h
          · cases h
          · next hbehind =>
            simp only [Bool.not_eq_true, Bool.not_eq_false'] at hfields hbehind
            exact ⟨List.all_eq_true.mp hfields, List.all_eq_true.mp hbehind⟩
  · rintro (hall | ⟨before, fan, behind, rfl, hfan, hfields, hbehind⟩)
    · have hdrop : ss.dropWhile Segment.isConcrete = [] := by
        simpa using Text.dropWhile_append_of_stop (r := []) hall (by simp)
      simp only [shapeFault?, hdrop]
    · have hin : ∀ s ∈ before, s.isConcrete = true :=
        fun s hs => Segment.isConcrete_of_isField (hfields s hs)
      have hout : ∀ s ∈ (fan :: behind).head?, s.isConcrete = false := by
        simpa [Segment.isFanOut] using hfan
      have hnone : behind.any Segment.isFanOut = false := by
        rw [List.any_eq_false]
        intro s hs
        simp [Segment.isFanOut, Segment.isConcrete_of_isField (hbehind s hs)]
      have hall1 : before.all Segment.isField = true := List.all_eq_true.mpr hfields
      have hall2 : behind.all Segment.isField = true := List.all_eq_true.mpr hbehind
      simp [shapeFault?, Text.takeWhile_append_of_stop hin hout,
        Text.dropWhile_append_of_stop hin hout, hnone, hall1, hall2]

/-! ## Whole paths -/

/-- A text without blanks at its ends is a path exactly if the grammar says so. -/
theorem readPath_eq_ok_iff {cs : List Char} {ss : List Segment} :
    readPath cs = .ok ⟨ss⟩ ↔ ∃ r, cs = '$' :: r ∧ Spelled ss r ∧ Shaped ss := by
  constructor
  · intro h
    unfold readPath at h
    split at h
    · next r =>
      split at h
      · cases h
      · next ss' rest hread =>
        split at h
        · cases h
        · next hshape =>
          cases h
          exact ⟨r, rfl, spelled_of_readSegments hread, shapeFault?_eq_none_iff.mp hshape⟩
    · cases h
  · rintro ⟨r, rfl, hspelled, hshaped⟩
    obtain ⟨rest, hread⟩ := readSegments_of_spelled hspelled
    simp only [readPath, hread, shapeFault?_eq_none_iff.mpr hshaped]

end PathReader

/-- A path is read from its text without the blanks around it. -/
theorem parsePath_eq_ok_iff_readPath {p : String} {path : Path} :
    parsePath p = .ok path ↔ PathReader.readPath (Text.strip p.toList) = .ok path := by
  simp only [parsePath]
  split
  · next h => simp [h]
  · next h => simp [h]
  · next h => simp [h]

/-- A path that is read is spelled and shaped. -/
theorem spelled_of_parsePath {p : String} {ss : List Segment} (h : parsePath p = .ok ⟨ss⟩) :
    ∃ cs, Text.strip p.toList = '$' :: cs ∧ Spelled ss cs ∧ Shaped ss :=
  PathReader.readPath_eq_ok_iff.mp (parsePath_eq_ok_iff_readPath.mp h)

/-- A path that is spelled and shaped is read. -/
theorem parsePath_of_spelled {p : String} {cs : List Char} {ss : List Segment}
    (hstrip : Text.strip p.toList = '$' :: cs) (hspelled : Spelled ss cs) (hshaped : Shaped ss) :
    parsePath p = .ok ⟨ss⟩ :=
  parsePath_eq_ok_iff_readPath.mpr (PathReader.readPath_eq_ok_iff.mpr ⟨cs, hstrip, hspelled, hshaped⟩)

/-- A text is read as a path with certain steps exactly if, blanks at its ends aside, it is `$` and
spellings of these steps and the steps have the shape of a path. -/
theorem parsePath_eq_ok_iff (p : String) (ss : List Segment) :
    parsePath p = .ok ⟨ss⟩ ↔
      ∃ cs, Text.strip p.toList = '$' :: cs ∧ Spelled ss cs ∧ Shaped ss := by
  rw [parsePath_eq_ok_iff_readPath, PathReader.readPath_eq_ok_iff]

end DocDesk.Query
