import DocDesk.Number.Rounding
import DocDesk.Text.LetterCase
import DocDesk.Yaml.Node.Basic

/-!
# Numbers from YAML scalars

Integers in base two, eight, ten, sixteen and sixty, and doubles in base ten and sixty.  Underscores
do not count.  A scalar that is tagged as a number need not be spelled like one.

Main definitions: `toInt` and `toReal`.
-/

namespace DocDesk.Yaml

namespace Numeral

/-- A text without its underscores. -/
def withoutGaps (cs : List Char) : List Char := cs.filter (· ≠ '_')

/-- The value of a digit of any script, or of a letter as a digit beyond nine. -/
def digitIn? (base : Nat) (c : Char) : Option Nat :=
  let n :=
    match Text.digit? c with
    | some d => d
    | none =>
      if 'a' ≤ c ∧ c ≤ 'f' then c.toNat - 'a'.toNat + 10
      else if 'A' ≤ c ∧ c ≤ 'F' then c.toNat - 'A'.toNat + 10
      else base
  if n < base then some n else none

/-- A text without the mark of its base. -/
def dropBaseMark (base : Nat) (cs : List Char) : List Char :=
  let marks := if base = 16 then ['x', 'X'] else if base = 8 then ['o', 'O'] else ['b', 'B']
  match cs with
  | '0' :: m :: r => if marks.contains m && (r.head?.bind (digitIn? base)).isSome then r else cs
  | _ => cs

/-- The whole number that a text writes in a base. -/
def inBase (base : Nat) (cs : List Char) : Except ValueFault Int :=
  let (negative, body) := Whole.splitSign (Text.strip cs)
  let digits := dropBaseMark base body
  match digits.mapM (digitIn? base) with
  | none => .error (.radix base (String.ofList cs))
  | some ds =>
    if ds.isEmpty then .error (.radix base (String.ofList cs))
    else
      let n : Int := (ds.foldl (fun n d => n * base + d) 0 : Nat)
      .ok (if negative then -n else n)

/-- The number that parts in base sixty make, the first the highest. -/
def sixties (parts : List Int) : Int := parts.foldl (fun n d => n * 60 + d) 0

/-- A whole number in base ten. -/
def inTen (cs : List Char) : Except ValueFault Int :=
  match Whole.read (String.ofList cs) with
  | .ok n => .ok n
  | .error f => .error (.whole f)

/-- The magnitude of an integer scalar after its sign. -/
def magnitude (cs : List Char) : Except ValueFault Int :=
  match cs with
  | [] => .error .emptyNumeral
  | ['0'] => .ok 0
  | '0' :: 'b' :: r => inBase 2 r
  | '0' :: 'x' :: r => inBase 16 r
  | '0' :: _ => inBase 8 cs
  | _ =>
    if cs.contains ':' then do
      let parts ← (Text.splitAt ':' cs).mapM inTen
      .ok (sixties parts)
    else inTen cs

/-- The integer that a scalar stands for. -/
def toInt (text : List Char) : Except ValueFault Int :=
  match withoutGaps text with
  | [] => .error .emptyNumeral
  | cs => do
    let (negative, body) := Whole.splitSign cs
    let n ← magnitude body
    .ok (if negative then -n else n)

/-! ## Doubles -/

/-- The words for infinities and for the not-a-number value. -/
def word? (cs : List Char) : Option Binary64 :=
  if cs = "inf".toList ∨ cs = "infinity".toList then some (.infinite false)
  else if cs = "nan".toList then some .nan
  else none

/-- A decimal numeral without a sign. -/
def isDecimal (cs : List Char) : Bool :=
  let whole := cs.takeWhile Text.isDigit
  let r := cs.dropWhile Text.isDigit
  let (fraction, r) :=
    match r with
    | '.' :: t => (t.takeWhile Text.isDigit, t.dropWhile Text.isDigit)
    | _ => ([], r)
  let exponentOk :=
    match r with
    | [] => true
    | 'e' :: t =>
      let ds := (Whole.splitSign t).2
      !ds.isEmpty && ds.all Text.isDigit
    | _ => false
  !(whole.isEmpty && fraction.isEmpty) && exponentOk

/-- The double that a text in lower case writes. -/
def real (cs : List Char) : Except ValueFault Binary64 :=
  let (negative, body) := Whole.splitSign (Text.strip cs)
  let signed (x : Binary64) : Binary64 := if negative then x.neg else x
  match word? body with
  | some x => .ok (signed x)
  | none =>
    if isDecimal body then .ok (signed (.ofNumeral body))
    else .error (.notNumber (String.ofList cs))

/-- The double that parts in base sixty make, the last the lowest, added from the lowest on. -/
def realSixties (parts : List Binary64) : Binary64 :=
  (parts.reverse.foldl (fun (sum, base) x => (sum.add (x.mul (.ofInt base)), base * 60))
    (Binary64.zero, (1 : Int))).1

/-- The magnitude of a scalar in lower case that stands for a double, after its sign. -/
def realMagnitude (cs : List Char) : Except ValueFault Binary64 :=
  if cs = ".inf".toList then .ok (.infinite false)
  else if cs = ".nan".toList then .ok .nan
  else if cs.contains ':' then do
    let parts ← (Text.splitAt ':' cs).mapM real
    .ok (realSixties parts)
  else real cs

/-- The double that a scalar stands for. -/
def toReal (text : List Char) : Except ValueFault Binary64 :=
  match (withoutGaps text).map Text.lowerChar with
  | [] => .error .emptyNumeral
  | cs => do
    let (negative, body) := Whole.splitSign cs
    let x ← realMagnitude body
    .ok (if negative then x.neg else x)

end Numeral

end DocDesk.Yaml
