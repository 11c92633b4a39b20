import DocDesk.Json.Basic
import DocDesk.Nesting

/-!
# Nesting of JSON documents

How many containers stand within each other, and how many of them a text form goes through: an object
stands for one text, whatever is in it, so that only arrays count.

Main statements: `depthItem_le_iff`, `depthMember_le_iff` and `formDepth_le_depth`.
-/

namespace DocDesk.Json

mutual

/-- How many containers nest in the document. -/
def depth : Json → Nat
  | .arr items => depthItem items + 1
  | .obj members => depthMember members + 1
  | _ => 0

/-- The greatest nesting in the items. -/
def depthItem : List Json → Nat
  | [] => 0
  | v :: vs => max (depth v) (depthItem vs)

/-- The greatest nesting in the members. -/
def depthMember : List (String × Json) → Nat
  | [] => 0
  | (_, v) :: ms => max (depth v) (depthMember ms)

end

mutual

/-- How many arrays nest in the document, not counting those in objects. -/
def formDepth : Json → Nat
  | .arr items => formDepthItem items + 1
  | _ => 0

/-- The greatest such nesting in the items. -/
def formDepthItem : List Json → Nat
  | [] => 0
  | v :: vs => max (formDepth v) (formDepthItem vs)

end

/-- A scalar nests nothing. -/
theorem depth_of_isScalar {v : Json} (h : v.isScalar = true) : v.depth = 0 := by
  cases v with
  | arr items => cases h
  | obj members => cases h
  | _ => rfl

/-- Items nest no deeper than a bound exactly if none of them does. -/
theorem depthItem_le_iff {vs : List Json} {d : Nat} : depthItem vs ≤ d ↔ ∀ v ∈ vs, v.depth ≤ d := by
  induction vs with
  | nil => simp [depthItem]
  | cons v vs ih => rw [depthItem, Nat.max_le, ih, List.forall_mem_cons]

/-- Members nest no deeper than a bound exactly if none of them does. -/
theorem depthMember_le_iff {ms : List (String × Json)} {d : Nat} :
    depthMember ms ≤ d ↔ ∀ m ∈ ms, m.2.depth ≤ d := by
  induction ms with
  | nil => simp [depthMember]
  | cons m ms ih => rw [depthMember, Nat.max_le, ih, List.forall_mem_cons]

mutual

/-- A text form goes through no more arrays than there are containers. -/
theorem formDepth_le_depth (v : Json) : v.formDepth ≤ v.depth := by
  match v with
  | .arr items =>
    rw [formDepth, depth, Nat.add_le_add_iff_right]
    exact formDepthItem_le_depthItem items
  | .null | .bool _ | .int _ | .float _ | .str _ | .obj _ =>
    rw [formDepth]
    · exact Nat.zero_le _
    · exact nofun

/-- The same for the items of an array. -/
theorem formDepthItem_le_depthItem (vs : List Json) : formDepthItem vs ≤ depthItem vs := by
  match vs with
  | [] => exact Nat.le_refl _
  | v :: vs =>
    rw [formDepthItem, depthItem]
    have hv := formDepth_le_depth v
    have hvs := formDepthItem_le_depthItem vs
    omega

end

end DocDesk.Json
