import DocDesk.Proofs.Query.Grammar
import Mathlib.Data.List.Forall2

/-!
# Written forms of steps

The written form of a step starts like a step and ends with a bracket, unless it is a field.  So a
path written anew ends with a blank only where the last field of the path does, and fields and
indexes are read back from their written form.

Main statement: `Spelled.trimmed_render`.
-/

namespace DocDesk.Query

/-! ## Ends of written steps -/

/-- Every step has a text. -/
theorem Segment.render_ne_nil (s : Segment) : s.render ≠ [] := by
  cases s <;> simp

/-- It starts like a step. -/
theorem Segment.atStep_render (s : Segment) (r : List Char) :
    PathReader.AtStep (s.render ++ r) := by
  cases s <;> simp [PathReader.AtStep]

/-- So does the text of several steps, or it is empty. -/
theorem atStep_flatMap_render (ss : List Segment) :
    PathReader.AtStep (ss.flatMap Segment.render) := by
  cases ss with
  | nil => simp [PathReader.AtStep]
  | cons s ss =>
    rw [List.flatMap_cons]
    exact s.atStep_render _

/-- A step that is no field ends with its bracket. -/
theorem Segment.flushBack_render {s : Segment} (hs : s.isField = false) :
    Text.FlushBack s.render := by
  have hclose : ∀ cs : List Char, Text.FlushBack (cs ++ [']']) := Text.FlushBack.concat (by decide)
  cases s with
  | field name => cases hs
  | index i => exact hclose ('[' :: natText i)
  | wildcard => exact hclose ['[', '*']
  | filter property op literal =>
    rw [Segment.render_filter, List.append_cons _ ')' [']']]
    exact hclose _

/-- A field is spelled as it is written. -/
theorem Segment.Spelling.eq_render {s : Segment} {a : List Char} (h : s.Spelling a)
    (hs : s.isField = true) : a = s.render := by
  cases h with
  | field => simp
  | _ => cases hs

/-! ## Fields and indexes -/

/-- The digits of an index spell it. -/
theorem spelling_index {i : Nat} (hi : i < indexLimit) :
    Segment.Spelling (.index i) (Segment.index i).render := by
  have hspelled := Segment.Spelling.index (natText_ne_nil i) (fun _ h => isDigit_of_mem_natText h)
    (lt_indexLimit_iff.mp hi)
  rwa [ofDigitChars_natText] at hspelled

/-- A spelled step other than a filter is spelled by its written form. -/
theorem Segment.Spelling.render {s : Segment} {a : List Char} (h : s.Spelling a)
    (hs : s.isFilter = false) : s.Spelling s.render := by
  cases h with
  | @field name hne hname => simpa using Segment.Spelling.field hne hname
  | index hne hdigits hlen => exact spelling_index (ofDigitChars_lt_indexLimit hdigits hlen)
  | wildcard => exact .wildcard
  | filter => cases hs

/-! ## Blanks at the end -/

/-- A step that can be written where another one stands: any step but a field, or a field where it
stands already. -/
def Segment.FitsPlace (s c : Segment) : Prop := c.isField = true → c = s

/-- What is written for the steps of a path ends with a blank only if the text of the path does. -/
theorem Spelled.flushBack_render {ss cs : List Segment} {t : List Char} (h : Spelled ss t)
    (hfit : List.Forall₂ Segment.FitsPlace ss cs) (ht : Text.FlushBack t) :
    Text.FlushBack (cs.flatMap Segment.render) := by
  induction h generalizing cs with
  | nil =>
    cases hfit
    simp [Text.FlushBack]
  | @filter s a hs hspell ignored =>
    cases hfit with
    | @cons _ c _ _ hfit hnil =>
      cases hnil
      rw [List.flatMap_cons, List.flatMap_nil, List.append_nil]
      refine Segment.flushBack_render (Bool.eq_false_iff.mpr fun hc => ?_)
      rw [hfit hc, Segment.not_isField_of_isFilter hs] at hc
      cases hc
  | @cons s ss a rest hs hspell hrest ih =>
    cases hfit with
    | @cons _ c _ cs hfit hfits =>
      rw [List.flatMap_cons]
      by_cases hend : rest = []
      · -- the last step: a field ends as the text does, any other step with its bracket
        have hnil : cs = [] := by
          cases hrest with
          | nil => cases hfits; rfl
          | filter _ h _ => simp [h.ne_nil] at hend
          | cons _ h _ => simp [h.ne_nil] at hend
        rw [hend, List.append_nil] at ht
        rw [hnil, List.flatMap_nil, List.append_nil]
        by_cases hc : c.isField = true
        · have hcs : c = s := hfit hc
          rw [hcs] at hc ⊢
          rwa [← hspell.eq_render hc]
        · exact Segment.flushBack_render (Bool.eq_false_iff.mpr hc)
      · have hne : cs.flatMap Segment.render ≠ [] := by
          cases hrest with
          | nil => exact absurd rfl hend
          | filter => cases hfits with | cons => simp [Segment.render_ne_nil]
          | cons => cases hfits with | cons => simp [Segment.render_ne_nil]
        rw [Text.flushBack_append hne]
        exact ih hfits ((Text.flushBack_append hend).mp ht)

/-- A path text without blanks at its ends has none when its steps are written anew. -/
theorem Spelled.trimmed_render {ss cs : List Segment} {t : List Char} (h : Spelled ss t)
    (ht : Text.Trimmed ('$' :: t)) (hfit : List.Forall₂ Segment.FitsPlace ss cs) :
    Text.Trimmed ('$' :: cs.flatMap Segment.render) := by
  refine ⟨.cons (by decide) _, ?_⟩
  by_cases hnil : cs.flatMap Segment.render = []
  · simp [hnil, Text.FlushBack, Text.isBlank]
  · refine (Text.flushBack_append (a := ['$']) hnil).mpr (h.flushBack_render hfit ?_)
    intro c hc
    cases t with
    | nil => cases hc
    | cons d t => exact ht.2 c hc

end DocDesk.Query
