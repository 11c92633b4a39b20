import DocDesk.Json.Nesting
import DocDesk.Proofs.Schema.Ready

/-!
# Surveys

A survey says which checks end, of every value that nests no deeper than a number says.  Whether a check
ends that a keyword asks for can be looked up in it: the value of the keyword names the schema, and the
scope and the draft are those at which the schema is taken up.

Main statement: `Checker.Keeps.of_walk` (a checker keeps to a survey if the way to check does that it goes
on with).
-/

namespace DocDesk.Schema

/-- The checks that end: by the nesting of the value, the draft that says which keywords count, the scope
and the schema. -/
abbrev Survey := Nat → Draft → Scope → Json → Bool

namespace Survey

variable (w : Survey)

/-- Going down into a schema ends. -/
def descends (n : Nat) (s : Scope) (schema : Json) : Bool :=
  match draftOf schema s.draft with
  | .ok d => w n s.draft { s.enter ⟨s.draft, schema⟩ with draft := d } schema
  | .error _ => false

/-- Asking whether a value is valid under a schema ends. -/
def asks (n : Nat) (s : Scope) (schema : Json) : Bool :=
  match draftOf schema s.draft with
  | .ok d => w n d { s with draft := d } schema
  | .error _ => false

/-- Arriving at a schema by a reference ends. -/
def arrives (n : Nat) (s : Scope) (found : Json × Scope) : Bool :=
  match draftOf found.1 s.draft with
  | .ok d => w n s.draft { found.2 with draft := d } found.1
  | .error _ => false

/-- Going down with a part of a value ends; a value that nests nothing has no parts. -/
def descendsWithPart (n : Nat) (s : Scope) (schema : Json) : Bool :=
  n = 0 || w.descends (n - 1) s schema

/-- Asking about a part of a value ends. -/
def asksOfPart (n : Nat) (s : Scope) (schema : Json) : Bool := n = 0 || w.asks (n - 1) s schema

end Survey

/-- Values that nest no deeper than a number says, and of which what is known holds. -/
structure Within (k : Known) (n : Nat) (v : Json) : Prop where
  depth : v.depth ≤ n
  known : k.Holds v

namespace Within

variable {k : Known} {n : Nat} {v w : Json}

/-- A value with parts nests something, and its parts nest less. -/
theorem part (h : Within k n v) (hpart : IsPart v w) : n ≠ 0 ∧ Within k (n - 1) w := by
  obtain ⟨s, hpart⟩ := hpart
  cases hpart with
  | item hget =>
    have hmem := List.mem_of_getElem? hget
    have hdepth := h.depth
    rw [Json.depth] at hdepth
    exact ⟨by omega, Json.depthItem_le_iff.mp (by omega) _ hmem, h.known.item hmem⟩
  | member hmem =>
    have hdepth := h.depth
    rw [Json.depth] at hdepth
    exact ⟨by omega, Json.depthMember_le_iff.mp (by omega) _ hmem, h.known.member hmem⟩

/-- The names of the members of an object nest nothing. -/
theorem name {ms : List (String × Json)} {m : String × Json} (h : Within k n (.obj ms)) (hm : m ∈ ms) :
    n ≠ 0 ∧ Within k 0 (.str m.1) := by
  have hdepth := h.depth
  rw [Json.depth] at hdepth
  exact ⟨by omega, Nat.le_refl _, h.known.name hm⟩

end Within

/-- The checks of a survey come to their end. -/
structure Checker.Keeps (c : Checker) (k : Known) (w : Survey) : Prop where
  descend {n : Nat} {s : Scope} {schema data : Json} : w.descends n s schema = true →
    Within k n data → (c.descend s schema data).Complete
  arrive {n : Nat} {s : Scope} {found : Json × Scope} {data : Json} : w.arrives n s found = true →
    Within k n data → (c.arrive s found data).Complete
  isValid {n : Nat} {s : Scope} {schema data : Json} : w.asks n s schema = true →
    Within k n data → Succeeds (c.isValid s schema data)

namespace Checker.Keeps

variable {c : Checker} {k : Known} {w : Survey}

/-- Going down with a part of a value. -/
theorem descendWithPart (h : c.Keeps k w) {n : Nat} {s : Scope} {schema data v : Json}
    (hdata : Within k n data) (hpart : IsPart data v) (hw : w.descendsWithPart n s schema = true) :
    (c.descend s schema v).Complete := by
  obtain ⟨hn, hv⟩ := hdata.part hpart
  rcases Bool.or_eq_true_iff.mp hw with hzero | hw
  · exact absurd (of_decide_eq_true hzero) hn
  · exact h.descend hw hv

/-- Asking about a part of a value. -/
theorem isPartValid (h : c.Keeps k w) {n : Nat} {s : Scope} {schema data v : Json}
    (hdata : Within k n data) (hpart : IsPart data v) (hw : w.asksOfPart n s schema = true) :
    Succeeds (c.isValid s schema v) := by
  obtain ⟨hn, hv⟩ := hdata.part hpart
  rcases Bool.or_eq_true_iff.mp hw with hzero | hw
  · exact absurd (of_decide_eq_true hzero) hn
  · exact h.isValid hw hv

/-- A checker keeps to the survey that the way to check keeps to with which it goes on. -/
theorem of_walk {l : Library} {walk : Draft → Scope → Json → Json → Findings}
    (h : ∀ n d s schema data, w n d s schema = true → Within k n data →
      (walk d s schema data).Complete) : (checkerOf l walk).Keeps k w where
  descend {n s schema data} hw hdata := by
    unfold Survey.descends at hw
    split at hw
    · next d hd =>
      refine .bind ⟨d, hd⟩ fun d' hd' => ?_
      rw [hd] at hd'
      cases hd'
      exact h _ _ _ _ _ hw hdata
    · cases hw
  arrive {n s found data} hw hdata := by
    unfold Survey.arrives at hw
    split at hw
    · next d hd =>
      refine .bind ⟨d, hd⟩ fun d' hd' => ?_
      rw [hd] at hd'
      cases hd'
      exact h _ _ _ _ _ hw hdata
    · cases hw
  isValid {n s schema data} hw hdata := by
    unfold Survey.asks at hw
    split at hw
    · next d hd =>
      refine Succeeds.bind ⟨d, hd⟩ fun d' hd' => ?_
      rw [hd] at hd'
      cases hd'
      exact (h _ _ _ _ _ hw hdata).isClean
    · cases hw

end Checker.Keeps

end DocDesk.Schema
