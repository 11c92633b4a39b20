import DocDesk.Json.Nesting
import DocDesk.Number.Whole

/-!
# Loose comparison

Comparison across kinds.  Null equals null alone; a boolean counts as the number zero or one; a text
against a number is read as a number; a container against anything else stands for its text form; two
containers are equal only if they are one and the same.  Order compares two texts by character and
anything else as numbers, and a text that is no number is neither below nor above anything.

What a comparator says of two values is `Comparator.holds`.  It is found out by `Comparator.compare`,
which gives up where it would have to take the form of an array that is nested beyond `formLimit`.

Main statements: `ne_eq_not_eq`, `gt_eq_lt_swap`, `looseEq_comm`, `compare_eq_ok` and
`compare_eq_error_iff`.
-/

namespace DocDesk

namespace Numeral

/-- A decimal numeral: an optional sign, digits of any script with at most one point, an optional
exponent. -/
def isDecimal (cs : List Char) : Bool :=
  let body := match cs with
    | '-' :: r => r
    | '+' :: r => r
    | _ => cs
  let whole := body.takeWhile Text.isDigit
  let r := body.dropWhile Text.isDigit
  let (fraction, r) := match r with
    | '.' :: t => (t.takeWhile Text.isDigit, t.dropWhile Text.isDigit)
    | _ => ([], r)
  let exponentOk := match r with
    | [] => true
    | c :: t =>
      let digits := match t with
        | '-' :: u => u
        | '+' :: u => u
        | _ => t
      (c = 'e' || c = 'E') && !digits.isEmpty && digits.all Text.isDigit
  (!whole.isEmpty || !fraction.isEmpty) && exponentOk

/-- The value of a digit in a base up to sixteen. -/
def radixDigit? (base : Nat) (c : Char) : Option Nat :=
  let n :=
    if '0' ≤ c ∧ c ≤ '9' then c.toNat - '0'.toNat
    else if 'a' ≤ c ∧ c ≤ 'f' then c.toNat - 'a'.toNat + 10
    else if 'A' ≤ c ∧ c ≤ 'F' then c.toNat - 'A'.toNat + 10
    else base
  if n < base then some n else none

/-- The number that ASCII digits of a base write; none if there is no digit or another character. -/
def ofRadix? (base : Nat) (cs : List Char) : Option Nat :=
  if cs.isEmpty then none
  else cs.foldlM (fun n c => (radixDigit? base c).map (n * base + ·)) 0

/-- A whole number in base sixteen, eight or two, after its mark. -/
def radix? (cs : List Char) : Option Nat :=
  match cs with
  | '0' :: mark :: r =>
    if mark = 'x' ∨ mark = 'X' then ofRadix? 16 r
    else if mark = 'o' ∨ mark = 'O' then ofRadix? 8 r
    else if mark = 'b' ∨ mark = 'B' then ofRadix? 2 r
    else none
  | _ => none

/-- The infinity that a word with an optional sign names. -/
def infinity? (cs : List Char) : Option Binary64 :=
  let word := "Infinity".toList
  if cs = word ∨ cs = '+' :: word then some (.infinite false)
  else if cs = '-' :: word then some (.infinite true)
  else none

/-- The number that a text without blanks at its ends stands for; not a number if it stands for
none. -/
def value (cs : List Char) : Binary64 :=
  if cs.isEmpty then .zero
  else if isDecimal cs then .ofNumeral cs
  else match radix? cs with
    | some n => .ofInt n
    | none => (infinity? cs).getD .nan

end Numeral

namespace Json

/-- The text that every object stands for. -/
def objectText : String := "[object Object]"

/-- The text of a number: without a fraction as an integer while below ten to the twenty-first. -/
def numberText (x : Binary64) : List Char :=
  match x with
  | .nan => "NaN".toList
  | .infinite negative => (if negative then ['-'] else []) ++ "Infinity".toList
  | .finite _ _ =>
    match x.truncate? with
    | some n => if x.isWhole && n.natAbs < 10 ^ 21 then intText n else x.textWith "nan" "inf"
    | none => x.textWith "nan" "inf"

/-- The form of an item: nothing for null. -/
def itemForm (v : Json) (form : List Char) : List Char :=
  match v with
  | .null => []
  | _ => form

mutual

/-- The text form of a value. -/
def looseChars : Json → List Char
  | .null => "null".toList
  | .bool true => "true".toList
  | .bool false => "false".toList
  | .int i => numberText (.ofInt i)
  | .float x => numberText x
  | .str s => s.toList
  | .arr vs => looseItems vs
  | .obj _ => objectText.toList

/-- The text forms of items with commas between them. -/
def looseItems : List Json → List Char
  | [] => []
  | [v] => itemForm v (looseChars v)
  | v :: w :: vs => itemForm v (looseChars v) ++ ',' :: looseItems (w :: vs)

end

/-- The text form of a value. -/
def looseText (v : Json) : String := String.ofList v.looseChars

/-- A container's text form; any other value itself. -/
def primitive : Json → Json
  | .arr vs => .str (looseText (.arr vs))
  | .obj _ => .str objectText
  | v => v

/-- The number a text stands for. -/
def textNumber (s : String) : Binary64 := Numeral.value (Text.strip s.toList)

/-- The number a value stands for. -/
def toNumber : Json → Binary64
  | .null => .zero
  | .bool true => .ofInt 1
  | .bool false => .zero
  | .int i => .ofInt i
  | .float x => x
  | .str s => textNumber s
  | .arr vs => textNumber (looseText (.arr vs))
  | .obj _ => textNumber objectText

/-- The integer or double that a text writes, if it is a number at all; a number without a fraction
is an integer. -/
def numberLiteral? (s : String) : Option Json :=
  if Text.isBlankText s then none
  else
    let x := textNumber s
    if x.isNaN then none
    else match x.truncate? with
      | some n => if x.isWhole then some (.int n) else some (.float x)
      | none => some (.float x)

/-! ## Comparators -/

/-- The comparators of filters. -/
inductive Comparator where
  | eq
  | ne
  | lt
  | gt
deriving DecidableEq, Repr

/-- How a comparator is written. -/
def Comparator.text : Comparator → String
  | .eq => "=="
  | .ne => "!="
  | .lt => "<"
  | .gt => ">"

/-- Equality of two values that are no containers. -/
def primitiveEq : Json → Json → Bool
  | .null, .null => true
  | .null, _ => false
  | _, .null => false
  | .bool a, .bool b => a = b
  | .str a, .str b => a = b
  | l, r => l.toNumber.numEq r.toNumber

/-- Loose equality; `same` says that the operands are one and the same container. -/
def looseEq (same : Bool) (l r : Json) : Bool :=
  if !l.isScalar && !r.isScalar then same else primitiveEq l.primitive r.primitive

/-- Loose order. -/
def looseLt (l r : Json) : Bool :=
  match l.primitive, r.primitive with
  | .str a, .str b => a.toList < b.toList
  | a, b => a.toNumber.numLt b.toNumber

/-- The truth of a comparison; `same` says that the operands are one and the same container. -/
def Comparator.holds (c : Comparator) (same : Bool) (l r : Json) : Bool :=
  match c with
  | .eq => looseEq same l r
  | .ne => !looseEq same l r
  | .lt => looseLt l r
  | .gt => looseLt r l

/-! ## Forms within reach -/

/-- The greatest nesting of arrays of which a text form is taken: a level takes four calls. -/
def formLimit : Nat := Nesting.levels 8 4

/-- The text form of a value is out of reach. -/
def isOverdeep (v : Json) : Bool := formLimit < v.formDepth

/-- The operands that a comparator takes the form of: none where null is compared for equality, nor where
two containers are. -/
def Comparator.formed (c : Comparator) (l r : Json) : List Json :=
  match c with
  | .lt | .gt => [l, r]
  | .eq | .ne => if l.isNull || r.isNull || (!l.isScalar && !r.isScalar) then [] else [l, r]

/-- Compares two values. -/
def Comparator.compare (c : Comparator) (same : Bool) (l r : Json) : Except Nesting.Exceeded Bool :=
  if (c.formed l r).any isOverdeep then .error {} else .ok (c.holds same l r)

/-! ## Laws -/

/-- Inequality is the opposite of equality. -/
theorem ne_eq_not_eq (same : Bool) (l r : Json) :
    Comparator.ne.holds same l r = !Comparator.eq.holds same l r := rfl

/-- Above is below with the operands changed. -/
theorem gt_eq_lt_swap (same : Bool) (l r : Json) :
    Comparator.gt.holds same l r = Comparator.lt.holds same r l := rfl

/-- Equality of numbers is symmetric. -/
theorem numEq_comm (x y : Binary64) : x.numEq y = y.numEq x := by
  unfold Binary64.numEq
  cases x.order? <;> cases y.order? <;> simp [eq_comm]

/-- Equality of values that are no containers is symmetric. -/
theorem primitiveEq_comm (l r : Json) : primitiveEq l r = primitiveEq r l := by
  cases l <;> cases r <;> simp [primitiveEq, numEq_comm, eq_comm]

/-- Loose equality is symmetric. -/
theorem looseEq_comm (same : Bool) (l r : Json) :
    Comparator.eq.holds same l r = Comparator.eq.holds same r l := by
  simp only [Comparator.holds, looseEq, Bool.and_comm, primitiveEq_comm l.primitive]

/-- A scalar is its own form. -/
theorem isOverdeep_of_isScalar {v : Json} (h : v.isScalar = true) : v.isOverdeep = false := by
  have hdepth := formDepth_le_depth v
  rw [depth_of_isScalar h] at hdepth
  rw [isOverdeep, Nat.le_zero.mp hdepth]
  exact decide_eq_false (Nat.not_lt_zero _)

/-- Operands take the same forms in either order. -/
theorem any_formed_comm (c : Comparator) (l r : Json) (p : Json → Bool) :
    (c.formed l r).any p = (c.formed r l).any p := by
  have hboth : [l, r].any p = [r, l].any p := by
    simp [Bool.or_comm]
  cases c with
  | lt | gt => exact hboth
  | eq | ne =>
    simp only [Comparator.formed, Bool.or_comm l.isNull, Bool.and_comm (!l.isScalar)]
    split
    · rfl
    · exact hboth

/-- Beside a scalar that is not null, the form that may be out of reach is that of the other operand. -/
theorem any_formed {l r : Json} (c : Comparator) (hr : r.isScalar = true) (hnull : r.isNull = false) :
    (c.formed l r).any isOverdeep = l.isOverdeep := by
  have hboth : [l, r].any isOverdeep = l.isOverdeep := by
    simp only [List.any_cons, List.any_nil, isOverdeep_of_isScalar hr, Bool.or_false]
  cases c with
  | lt | gt => exact hboth
  | eq | ne =>
    simp only [Comparator.formed, hr, hnull, Bool.or_false, Bool.not_true, Bool.and_false]
    split
    · next hl =>
      -- null has no form at all
      cases l <;> first | rfl | cases hl
    · exact hboth

/-- Beside a scalar that is not null, what is within reach is compared. -/
theorem compare_eq_ok {c : Comparator} {same : Bool} {l r : Json} (hr : r.isScalar = true)
    (hnull : r.isNull = false) (hl : l.isOverdeep = false) :
    c.compare same l r = .ok (c.holds same l r) := by
  rw [Comparator.compare, any_formed c hr hnull, hl]
  rfl

/-- Against a scalar that is not null a comparison gives up exactly if the other operand is nested too
deep. -/
theorem compare_eq_error_iff {c : Comparator} {same : Bool} {l r : Json} {e : Nesting.Exceeded}
    (hr : r.isScalar = true) (hnull : r.isNull = false) :
    c.compare same l r = .error e ↔ l.isOverdeep = true := by
  rw [Comparator.compare, any_formed c hr hnull]
  cases l.isOverdeep <;> simp

end Json

end DocDesk
