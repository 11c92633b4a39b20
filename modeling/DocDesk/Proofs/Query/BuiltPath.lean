import DocDesk.Proofs.Query.WrittenForm
import DocDesk.Query.Suggestion
import Mathlib.Data.List.Induction

/-!
# Paths built from steps

A path text that is built from field names, indexes and stars is read back as these steps, with one
exception: blanks at the end of a path text do not count, so that a last name loses those at its end.

Main statement: `parsePath_buildPath_iff`.
-/

namespace DocDesk.Query

namespace Step

/-- The segment of a path that a step stands for. -/
def toSegment : Step → Segment
  | .name s => .field s
  | .index i => .index i
  | .any => .wildcard

/-- An index. -/
def isIndex : Step → Bool
  | .index _ => true
  | _ => false

/-- A step that can stand in a path: a name that can be a field, an index whose numeral can be read, or a
star. -/
def Legal : Step → Prop
  | .name s => isQueryName s = true
  | .index i => i < indexLimit
  | .any => True

instance : DecidablePred Legal
  | .name s => inferInstanceAs (Decidable (isQueryName s = true))
  | .index i => inferInstanceAs (Decidable (i < indexLimit))
  | .any => inferInstanceAs (Decidable True)

/-- At most one star, and nothing but names beside it. -/
structure StarAmongNames (steps : List Step) : Prop where
  once : steps.count .any ≤ 1
  names : .any ∈ steps → ∀ s ∈ steps, s.isIndex = false

end Step

/-- A name for queries is not empty and has none of four characters. -/
theorem isQueryName_iff {name : String} :
    isQueryName name = true ↔ name.toList ≠ [] ∧ ∀ c ∈ name.toList, c ∉ ['.', '[', ']', '*'] := by
  simp [isQueryName, and_assoc]

/-! ## Texts of steps -/

/-- A name is written as a field. -/
theorem stepText_name {name : String} (h : isQueryName name = true) :
    stepText (.str name) = (Segment.field name).render := by
  have hstar : name ≠ "*" := by
    rintro rfl
    exact absurd h (by decide)
  exact if_neg hstar

/-- A number is written as an index. -/
theorem stepText_index (i : Nat) : stepText (.int i) = (Segment.index i).render := by
  have hplain : (Json.int i).plain.toList = natText i := by
    rw [Json.plain.eq_def]
    dsimp only
    rw [Json.inspect, String.toList_ofList, Json.inspectChars, intText, if_neg (by omega),
      List.nil_append, Int.natAbs_natCast]
  rw [stepText, hplain, Segment.render_index]

/-- A step is written as the segment that it stands for. -/
theorem stepText_toJson {s : Step} (h : s.Legal) : stepText s.toJson = s.toSegment.render := by
  cases s with
  | name name => exact stepText_name h
  | index i => exact stepText_index i
  | any => rfl

/-- A path is built of a dollar sign and the texts of its steps. -/
theorem toList_buildPath {steps : List Step} (h : ∀ s ∈ steps, s.Legal) :
    (buildPath steps).toList = '$' :: (steps.map Step.toSegment).flatMap Segment.render := by
  have hsteps : (steps.map Step.toJson).flatMap stepText =
      (steps.map Step.toSegment).flatMap Segment.render := by
    rw [List.flatMap_map, List.flatMap_map]
    exact List.flatMap_congr fun s hs => stepText_toJson (h s hs)
  rw [buildPath, pathText, String.toList_ofList, hsteps]

/-! ## Spellings and shapes -/

/-- A legal step is spelled as it is written. -/
theorem Step.Legal.spelling {s : Step} (h : s.Legal) : s.toSegment.Spelling s.toSegment.render := by
  cases s with
  | name name =>
    obtain ⟨hne, hfree⟩ := isQueryName_iff.mp h
    have hspelled := Segment.Spelling.field hne hfree
    rwa [String.ofList_toList] at hspelled
  | index i => exact spelling_index h
  | any => exact .wildcard

/-- No step is a filter. -/
theorem Step.isFilter_toSegment (s : Step) : s.toSegment.isFilter = false := by
  cases s <;> rfl

/-- Legal steps are spelled as they are written. -/
theorem spelled_written {steps : List Step} (h : ∀ s ∈ steps, s.Legal) :
    Spelled (steps.map Step.toSegment) ((steps.map Step.toSegment).flatMap Segment.render) := by
  induction steps with
  | nil => exact .nil
  | cons s steps ih =>
    obtain ⟨hs, hsteps⟩ := List.forall_mem_cons.mp h
    exact .cons s.isFilter_toSegment hs.spelling (ih hsteps)

/-- Names alone are fields alone. -/
theorem isField_of_no_index {steps : List Step} (hindex : ∀ s ∈ steps, s.isIndex = false)
    (hany : .any ∉ steps) : ∀ s ∈ steps.map Step.toSegment, s.isField = true := by
  intro segment hsegment
  obtain ⟨s, hs, rfl⟩ := List.mem_map.mp hsegment
  cases s with
  | name name => rfl
  | index i => cases hindex _ hs
  | any => exact absurd hs hany

/-- Steps with one star among names are shaped. -/
theorem Step.StarAmongNames.shaped {steps : List Step} (h : StarAmongNames steps) :
    Shaped (steps.map Step.toSegment) := by
  by_cases hany : .any ∈ steps
  · obtain ⟨before, behind, rfl⟩ := List.append_of_mem hany
    have hindex := h.names hany
    have honce := h.once
    -- the star that was found is the only one, so that names are left on both sides of it
    rw [List.count_append, List.count_cons_self] at honce
    have hbefore : .any ∉ before := List.count_eq_zero.mp (by omega)
    have hbehind : .any ∉ behind := List.count_eq_zero.mp (by omega)
    rw [List.map_append, List.map_cons]
    exact .inr ⟨_, .wildcard, _, rfl, rfl,
      isField_of_no_index (fun s hs => hindex s (List.mem_append_left _ hs)) hbefore,
      isField_of_no_index (fun s hs => hindex s (List.mem_append_right _ (List.mem_cons_of_mem _ hs)))
        hbehind⟩
  · refine .inl fun segment hsegment => ?_
    obtain ⟨s, hs, rfl⟩ := List.mem_map.mp hsegment
    cases s with
    | name name => rfl
    | index i => rfl
    | any => exact absurd hs hany

/-! ## Blanks at the end -/

/-- What is built ends with a blank only if its last step is a name that does. -/
theorem flushBack_written {steps : List Step} (h : ∀ s ∈ steps, s.Legal) :
    Text.FlushBack ('$' :: (steps.map Step.toSegment).flatMap Segment.render) ↔
      ∀ name, steps.getLast? = some (.name name) → Text.FlushBack name.toList := by
  cases steps using List.reverseRecOn with
  | nil => simp [Text.FlushBack, Text.isBlank]
  | append_singleton front s =>
    have hs : s.Legal := h s (List.mem_append_right _ List.mem_cons_self)
    have hback : Text.FlushBack ('$' :: ((front ++ [s]).map Step.toSegment).flatMap Segment.render) ↔
        Text.FlushBack s.toSegment.render := by
      rw [List.map_append, List.flatMap_append, ← List.cons_append, List.map_singleton,
        List.flatMap_singleton]
      exact Text.flushBack_append s.toSegment.render_ne_nil
    rw [hback, List.getLast?_concat]
    cases s with
    | name name =>
      obtain ⟨hne, -⟩ := isQueryName_iff.mp hs
      have hname : Text.FlushBack (Segment.field name).render ↔ Text.FlushBack name.toList :=
        Text.flushBack_append (a := ['.']) hne
      refine ⟨fun hflush other hother => ?_, fun hflush => hname.mpr (hflush name rfl)⟩
      cases hother
      exact hname.mp hflush
    | index _ | any =>
      refine ⟨fun _ name hname => ?_, fun _ => Segment.flushBack_render rfl⟩
      cases hname

/-- A path text that is built from steps is read as these steps exactly if its last step is no name that
ends with a blank. -/
theorem parsePath_buildPath_iff {steps : List Step} (hlegal : ∀ s ∈ steps, s.Legal)
    (hstar : Step.StarAmongNames steps) :
    parsePath (buildPath steps) = .ok ⟨steps.map Step.toSegment⟩ ↔
      ∀ name, steps.getLast? = some (.name name) → Text.FlushBack name.toList := by
  rw [← flushBack_written hlegal]
  constructor
  · intro h
    obtain ⟨cs, hstrip, hspelled, -⟩ := spelled_of_parsePath h
    have htrimmed : Text.Trimmed ('$' :: cs) := hstrip ▸ Text.trimmed_strip _
    exact (hspelled.trimmed_render htrimmed (List.forall₂_same.mpr fun _ _ _ => rfl)).2
  · intro hflush
    have htrimmed : Text.Trimmed ('$' :: (steps.map Step.toSegment).flatMap Segment.render) :=
      ⟨.cons (by decide) _, hflush⟩
    refine parsePath_of_spelled ?_ (spelled_written hlegal) hstar.shaped
    rw [toList_buildPath hlegal, Text.strip_of_trimmed htrimmed]

/-- A path whose names have blanks, a quote and a dollar sign. -/
theorem parsePath_buildPath_iff_spaced :
    (∀ s ∈ [Step.name " '$", .any, .name "7", .name "a b"], s.Legal) ∧
      Step.StarAmongNames [.name " '$", .any, .name "7", .name "a b"] ∧
      parsePath "$. '$[*].7.a b" =
        .ok ⟨[.field " '$", .wildcard, .field "7", .field "a b"]⟩ := by
  have hlegal : ∀ s ∈ [Step.name " '$", .any, .name "7", .name "a b"], s.Legal := by decide
  have hstar : Step.StarAmongNames [.name " '$", .any, .name "7", .name "a b"] :=
    ⟨by decide, fun _ => by decide⟩
  refine ⟨hlegal, hstar, (parsePath_buildPath_iff hlegal hstar).mpr fun name hname => ?_⟩
  cases hname
  exact Text.FlushBack.concat (c := 'b') (by decide) ['a', ' ']

/-- A name that can be a field loses the blanks at its end where it stands last, and is lost if there is
nothing else in it. -/
theorem parsePath_buildPath_blank :
    isQueryName "a " = true ∧ parsePath (buildPath [.name "a "]) = .ok ⟨[.field "a"]⟩ ∧
      isQueryName " " = true ∧ ∀ path, parsePath (buildPath [.name " "]) ≠ .ok path := by
  refine ⟨by decide, by cbv, by decide, fun path hpath => ?_⟩
  have hfault : parsePath (buildPath [.name " "]) = .error (.malformed ⟨.emptyName, "$.", 2⟩) := by cbv
  rw [hfault] at hpath
  cases hpath

end DocDesk.Query
