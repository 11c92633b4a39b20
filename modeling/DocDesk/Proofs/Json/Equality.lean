import DocDesk.Json.Basic

/-!
# Equality of documents

Whether two documents are the same can be decided: they are of one kind, and their parts are the same in
order.

Main statement: `Json.beq_iff`.
-/

namespace DocDesk.Json

mutual

/-- A test for the same document. -/
def beq : Json → Json → Bool
  | .null, .null => true
  | .bool a, .bool b => a = b
  | .int a, .int b => a = b
  | .float a, .float b => a = b
  | .str a, .str b => a = b
  | .arr vs, .arr ws => beqItems vs ws
  | .obj ms, .obj ns => beqMembers ms ns
  | _, _ => false

/-- The test of items. -/
def beqItems : List Json → List Json → Bool
  | [], [] => true
  | v :: vs, w :: ws => beq v w && beqItems vs ws
  | _, _ => false

/-- The test of members. -/
def beqMembers : List (String × Json) → List (String × Json) → Bool
  | [], [] => true
  | (a, v) :: ms, (b, w) :: ns => a = b && beq v w && beqMembers ms ns
  | _, _ => false

end

mutual

/-- The test tells exactly the same documents. -/
theorem beq_iff (v w : Json) : beq v w = true ↔ v = w := by
  match v with
  | .arr vs =>
    cases w with
    | arr ws => rw [beq, beqItems_iff vs ws, arr.injEq]
    | null | bool _ | int _ | float _ | str _ | obj _ => simp [beq]
  | .obj ms =>
    cases w with
    | obj ns => rw [beq, beqMembers_iff ms ns, obj.injEq]
    | null | bool _ | int _ | float _ | str _ | arr _ => simp [beq]
  | .null | .bool _ | .int _ | .float _ | .str _ => cases w <;> simp [beq]

/-- The same for items. -/
theorem beqItems_iff (vs ws : List Json) : beqItems vs ws = true ↔ vs = ws := by
  match vs, ws with
  | [], [] => simp [beqItems]
  | v :: vs, w :: ws =>
    rw [beqItems, Bool.and_eq_true, beq_iff v w, beqItems_iff vs ws, List.cons.injEq]
  | [], _ :: _ | _ :: _, [] => simp [beqItems]

/-- The same for members. -/
theorem beqMembers_iff (ms ns : List (String × Json)) : beqMembers ms ns = true ↔ ms = ns := by
  match ms, ns with
  | [], [] => simp [beqMembers]
  | (a, v) :: ms, (b, w) :: ns =>
    rw [beqMembers, Bool.and_eq_true, Bool.and_eq_true, decide_eq_true_eq, beq_iff v w,
      beqMembers_iff ms ns, List.cons.injEq, Prod.mk.injEq]
  | [], _ :: _ | _ :: _, [] => simp [beqMembers]

end

instance : DecidableEq Json := fun v w => decidable_of_iff (beq v w = true) (beq_iff v w)

end DocDesk.Json
