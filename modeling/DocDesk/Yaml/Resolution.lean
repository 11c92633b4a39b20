import DocDesk.Yaml.Timestamp

/-!
# Kinds of plain scalars

A plain scalar stands for null, a boolean, a number, a timestamp, a merge or default key, or a text,
by its spelling alone.

Main definition: `resolve`.
-/

namespace DocDesk.Yaml

/-- What a plain scalar stands for. -/
inductive PlainKind where
  | null
  | bool
  | int
  | float
  | timestamp
  | merge
  | value
  | str
deriving DecidableEq, Repr

namespace Plain

/-- A text without the sign at its front. -/
def unsigned : List Char → List Char
  | '-' :: r => r
  | '+' :: r => r
  | cs => cs

/-- A digit or an underscore. -/
def isDigitOrGap (c : Char) : Bool := c.isDigit || c = '_'

/-- A hexadecimal digit or an underscore. -/
def isHexOrGap (c : Char) : Bool :=
  c.isDigit || ('a' ≤ c && c ≤ 'f') || ('A' ≤ c && c ≤ 'F') || c = '_'

/-- A nonempty text of a class. -/
def isSome (p : Char → Bool) (cs : List Char) : Bool := !cs.isEmpty && cs.all p

/-- One part of a number in base sixty: a colon and one or two digits below sixty. -/
def sixty? : List Char → Option (List Char)
  | ':' :: a :: b :: r =>
    if b.isDigit then (if '0' ≤ a ∧ a ≤ '5' then some r else none)
    else if a.isDigit then some (b :: r)
    else none
  | [':', a] => if a.isDigit then some [] else none
  | _ => none

/-- What follows the parts of a number in base sixty, at most `n` of them and at least one. -/
def sixties? : Nat → List Char → Option (List Char)
  | 0, _ => none
  | n + 1, cs =>
    match sixty? cs with
    | none => none
    | some r => if r.head? = some ':' then sixties? n r else some r

/-- The spellings of integers: base two, eight, ten and sixteen, and parts in base sixty. -/
def isInt (cs : List Char) : Bool :=
  match unsigned cs with
  | '0' :: 'b' :: r => isSome (fun c => c = '0' || c = '1' || c = '_') r
  | '0' :: 'x' :: r => isSome isHexOrGap r
  | '0' :: r => r.all fun c => ('0' ≤ c && c ≤ '7') || c = '_'
  | c :: r =>
    c.isDigit &&
      (match r.dropWhile isDigitOrGap with
      | [] => true
      | rest => sixties? rest.length rest = some [])
  | [] => false

/-- Nothing, or an exponent with its sign. -/
def isExponent : List Char → Bool
  | [] => true
  | e :: s :: ds => (e = 'e' || e = 'E') && (s = '-' || s = '+') && isSome Char.isDigit ds
  | _ => false

/-- The spellings of doubles: digits with a point, parts in base sixty with a point, infinities and
the not-a-number value. -/
def isFloat (cs : List Char) : Bool :=
  let body := unsigned cs
  (match body with
    | c :: r =>
      c.isDigit &&
        (match r.dropWhile isDigitOrGap with
        | '.' :: t => isExponent (t.dropWhile isDigitOrGap)
        | rest =>
          match sixties? rest.length rest with
          | some ('.' :: t) => t.all isDigitOrGap
          | _ => false)
    | [] => false)
  || (match cs with
    | '.' :: c :: r => c.isDigit && isExponent (r.dropWhile isDigitOrGap)
    | _ => false)
  || body ∈ [".inf".toList, ".Inf".toList, ".INF".toList]
  || cs ∈ [".nan".toList, ".NaN".toList, ".NAN".toList]

/-- The words for true and false. -/
def boolWords : List (String × Bool) :=
  [("yes", true), ("Yes", true), ("YES", true), ("no", false), ("No", false), ("NO", false),
    ("true", true), ("True", true), ("TRUE", true), ("false", false), ("False", false),
    ("FALSE", false), ("on", true), ("On", true), ("ON", true), ("off", false), ("Off", false),
    ("OFF", false)]

/-- The words for null. -/
def nullWords : List String := ["~", "null", "Null", "NULL"]

end Plain

open Plain in
/-- What a nonempty text of one line stands for. -/
def resolveLine (cs : List Char) : PlainKind :=
  if boolWords.any fun w => w.1.toList = cs then .bool
  else if isFloat cs then .float
  else if isInt cs then .int
  else if cs = ['<', '<'] then .merge
  else if nullWords.any fun w => w.toList = cs then .null
  else if Timestamp.isPlain cs then .timestamp
  else if cs = ['='] then .value
  else .str

/-- What a plain scalar stands for; a line break at its end does not count. -/
def resolve (cs : List Char) : PlainKind :=
  match cs with
  | [] => .null
  | ['\n'] => .str
  | _ => resolveLine (if cs.getLast? = some '\n' then cs.dropLast else cs)

end DocDesk.Yaml
