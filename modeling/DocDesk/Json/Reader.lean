import DocDesk.Json.Nesting
import DocDesk.Number.Whole
import DocDesk.Text.Split
import DocDesk.Text.Utf8

/-!
# Reading JSON text

A recursive reader over the characters left.  A fault keeps its cause and how many characters were
left, from which the line and the column follow.  Nesting is bounded by `depthLimit`, and a plain
integer by `digitLimit` digits; the constants for not-a-number and infinity are refused.

Main definition: `parse`.  Main statement: `hexUnit?_shorter` (an escape consumes text).
-/

namespace DocDesk.Json

/-- The two kinds of container. -/
inductive Container where
  | array
  | object
deriving DecidableEq, Repr

/-- What was expected, or found wrong, where JSON text is malformed. -/
inductive Malformation where
  | expectingValue
  | expectingName
  | expectingColon
  | expectingComma
  | unterminatedString
  | controlCharacter
  | badEscape
  | badUnicodeEscape
  | extraData
  | byteOrderMark
deriving DecidableEq, Repr

/-- The wording of a malformation. -/
def Malformation.message : Malformation → String
  | .expectingValue => "Expecting value"
  | .expectingName => "Expecting property name enclosed in double quotes"
  | .expectingColon => "Expecting ':' delimiter"
  | .expectingComma => "Expecting ',' delimiter"
  | .unterminatedString => "Unterminated string starting at"
  | .controlCharacter => "Invalid control character at"
  | .badEscape => "Invalid \\escape"
  | .badUnicodeEscape => "Invalid \\uXXXX escape"
  | .extraData => "Extra data"
  | .byteOrderMark => "Unexpected UTF-8 BOM (decode using utf-8-sig)"

namespace Reader

/-- Why reading stopped; `left` counts the characters from the fault to the end of the text. -/
inductive Fault where
  | malformed (cause : Malformation) (left : Nat)
  | constant (name : String)
  | tooDeep (container : Container)
  | digits (fault : DigitFault)
deriving DecidableEq, Repr

/-- A value with the characters left after it, or a fault. -/
abbrev Result (α : Type) := Except Fault (α × List Char)

/-- The greatest nesting of containers that is read, and that is written: a level takes one call. -/
def depthLimit : Nat := Nesting.levels 8 1

/-- The four blanks of JSON text. -/
def isSpace (c : Char) : Bool := c = ' ' || c = '\t' || c = '\n' || c = '\r'

/-- Drops the blanks at the front. -/
def skip (cs : List Char) : List Char := cs.dropWhile isSpace

/-! ## Strings -/

/-- The value of a hexadecimal digit. -/
def hexDigit? (c : Char) : Option Nat :=
  if '0' ≤ c ∧ c ≤ '9' then some (c.toNat - '0'.toNat)
  else if 'a' ≤ c ∧ c ≤ 'f' then some (c.toNat - 'a'.toNat + 10)
  else if 'A' ≤ c ∧ c ≤ 'F' then some (c.toNat - 'A'.toNat + 10)
  else none

/-- The four hexadecimal digits of a code unit; at least one character has to follow them. -/
def hexUnit? : List Char → Option (Nat × List Char)
  | a :: b :: c :: d :: e :: r => do
    let a ← hexDigit? a
    let b ← hexDigit? b
    let c ← hexDigit? c
    let d ← hexDigit? d
    some (((a * 16 + b) * 16 + c) * 16 + d, e :: r)
  | _ => none

/-- An escape consumes text. -/
theorem hexUnit?_shorter {cs r : List Char} {n : Nat} (h : hexUnit? cs = some (n, r)) :
    r.length < cs.length := by
  match cs, h with
  | a :: b :: c :: d :: e :: t, h =>
    simp only [hexUnit?, Option.bind_eq_bind] at h
    simp only [Option.bind_eq_some_iff, Option.some.injEq, Prod.mk.injEq] at h
    obtain ⟨_, _, _, _, _, _, _, _, _, rfl⟩ := h
    simp

/-- The character that a one-letter escape stands for. -/
def escape? (c : Char) : Option Char :=
  if c = '"' ∨ c = '\\' ∨ c = '/' then some c
  else if c = 'b' then some '\x08'
  else if c = 'f' then some '\x0c'
  else if c = 'n' then some '\n'
  else if c = 'r' then some '\r'
  else if c = 't' then some '\t'
  else none

/-- The first unit of a pair. -/
def isHighUnit (n : Nat) : Bool := 0xD800 ≤ n && n < 0xDC00

/-- The second unit of a pair. -/
def isLowUnit (n : Nat) : Bool := 0xDC00 ≤ n && n < 0xE000

/-- The character of one code unit; a unit of a pair alone is the replacement character. -/
def unitChar (n : Nat) : Char := if isHighUnit n || isLowUnit n then '\uFFFD' else Char.ofNat n

/-- The character of a pair of units. -/
def pairChar (high low : Nat) : Char :=
  Char.ofNat (0x10000 + (high - 0xD800) * 0x400 + (low - 0xDC00))

/-- The low unit of a pair, where an escape for one comes next. -/
def lowUnit? (cs : List Char) : Option (Nat × List Char) :=
  match cs with
  | '\\' :: 'u' :: r =>
    match hexUnit? r with
    | some (n, r') => if isLowUnit n then some (n, r') else none
    | none => none
  | _ => none

/-- The second half of a pair takes characters. -/
theorem lowUnit?_shorter {cs r : List Char} {n : Nat} (h : lowUnit? cs = some (n, r)) :
    r.length < cs.length := by
  unfold lowUnit? at h
  split at h
  · split at h
    · next hu =>
      split at h
      · cases h
        have := hexUnit?_shorter hu
        simp; omega
      · simp at h
    · simp at h
  · simp at h

/-- Reads the characters of a string up to its closing quote; `start` counts the characters left at
the opening quote. -/
def readChars (start : Nat) : List Char → Result (List Char)
  | [] => .error (.malformed .unterminatedString start)
  | c :: r =>
    if c = '"' then .ok ([], r)
    else if c = '\\' then
      match r with
      | [] => .error (.malformed .unterminatedString start)
      | e :: r' =>
        if e = 'u' then
          match _hu : hexUnit? r' with
          | none => .error (.malformed .badUnicodeEscape r.length)
          | some (n, r₁) =>
            match isHighUnit n, _hl : lowUnit? r₁ with
            | true, some (m, r₂) =>
              match readChars start r₂ with
              | .ok (cs, rest) => .ok (pairChar n m :: cs, rest)
              | .error f => .error f
            | _, _ =>
              match readChars start r₁ with
              | .ok (cs, rest) => .ok (unitChar n :: cs, rest)
              | .error f => .error f
        else match escape? e with
          | none => .error (.malformed .badEscape (r.length + 1))
          | some d =>
            match readChars start r' with
            | .ok (cs, rest) => .ok (d :: cs, rest)
            | .error f => .error f
    else if c.toNat < 0x20 then .error (.malformed .controlCharacter (r.length + 1))
    else
      match readChars start r with
      | .ok (cs, rest) => .ok (c :: cs, rest)
      | .error f => .error f
termination_by cs => cs.length
decreasing_by
  all_goals simp only [List.length_cons]
  · have := hexUnit?_shorter _hu; have := lowUnit?_shorter _hl; omega
  · have := hexUnit?_shorter _hu; omega
  · omega
  · omega

/-- Reads a string after its opening quote. -/
def readString (cs : List Char) : Result String :=
  match readChars (cs.length + 1) cs with
  | .ok (s, rest) => .ok (String.ofList s, rest)
  | .error f => .error f

/-! ## Numbers -/

/-- The digits of the whole part: a zero alone, or digits that do not begin with one. -/
def wholePart (cs : List Char) : List Char × List Char :=
  match cs with
  | '0' :: r => (['0'], r)
  | _ => (cs.takeWhile Char.isDigit, cs.dropWhile Char.isDigit)

/-- The digits after a point, if a digit follows the point. -/
def fractionPart (cs : List Char) : Option (List Char × List Char) :=
  match cs with
  | '.' :: r =>
    let ds := r.takeWhile Char.isDigit
    if ds.isEmpty then none else some (ds, r.dropWhile Char.isDigit)
  | _ => none

/-- The exponent, if at least one digit follows its mark and sign. -/
def exponentPart (cs : List Char) : Option (Int × List Char) :=
  match cs with
  | [] => none
  | c :: r =>
    if c = 'e' ∨ c = 'E' then
      let (negative, body) := Whole.splitSign r
      let ds := body.takeWhile Char.isDigit
      if ds.isEmpty then none
      else
        let n : Int := Decimal.natOfDigits (Decimal.digitValues ds)
        some (if negative then -n else n, body.dropWhile Char.isDigit)
    else none

/-- Splits a minus sign off. -/
def splitMinus : List Char → Bool × List Char
  | '-' :: r => (true, r)
  | r => (false, r)

/-- Reads a number.  Without a fraction and an exponent it is an integer. -/
def readNumber (cs : List Char) : Result Json :=
  let (negative, body) := splitMinus cs
  let (whole, r₁) := wholePart body
  if whole.isEmpty then .error (.malformed .expectingValue cs.length)
  else
    let (fraction, r₂) := (fractionPart r₁).getD ([], r₁)
    match exponentPart r₂ with
    | some (e, r₃) =>
      .ok (.float (.ofDecimal negative
        ⟨Decimal.natOfDigits (Decimal.digitValues (whole ++ fraction)), e - fraction.length⟩), r₃)
    | none =>
      if fraction.isEmpty then
        match readDigits whole with
        | .ok n => .ok (.int (if negative then -(n : Int) else n), r₂)
        | .error f => .error (.digits f)
      else
        .ok (.float (.ofDecimal negative
          ⟨Decimal.natOfDigits (Decimal.digitValues (whole ++ fraction)), -(fraction.length : Int)⟩), r₂)

/-! ## Values -/

/-- The words that stand for a value of their own. -/
def words : List (List Char × Except Fault Json) :=
  [(['n', 'u', 'l', 'l'], .ok .null), (['t', 'r', 'u', 'e'], .ok (.bool true)),
    (['f', 'a', 'l', 's', 'e'], .ok (.bool false)),
    (['N', 'a', 'N'], .error (.constant "NaN")),
    (['I', 'n', 'f', 'i', 'n', 'i', 't', 'y'], .error (.constant "Infinity")),
    (['-', 'I', 'n', 'f', 'i', 'n', 'i', 't', 'y'], .error (.constant "-Infinity"))]

/-- Reads a word, if one comes next. -/
def readWord? (cs : List Char) : Option (Result Json) :=
  words.findSome? fun w =>
    match Text.after? w.1 cs with
    | some r => some (w.2.map (·, r))
    | none => none

/-- Reads a word or a number. -/
def readScalar (cs : List Char) : Result Json := (readWord? cs).getD (readNumber cs)

/-- Reads items up to the closing bracket, at most `n` of them. -/
def readItems (item : List Char → Result Json) : Nat → List Char → Result (List Json)
  | 0, cs => .error (.malformed .expectingComma cs.length)
  | n + 1, cs =>
    match item cs with
    | .error f => .error f
    | .ok (v, r) =>
      match skip r with
      | ']' :: r => .ok ([v], r)
      | ',' :: r =>
        match readItems item n (skip r) with
        | .ok (vs, rest) => .ok (v :: vs, rest)
        | .error f => .error f
      | r => .error (.malformed .expectingComma r.length)

/-- Reads the name of a member and the colon after it. -/
def readName (cs : List Char) : Result String :=
  match cs with
  | '"' :: r =>
    match readString r with
    | .error f => .error f
    | .ok (name, r) =>
      match skip r with
      | ':' :: r => .ok (name, skip r)
      | r => .error (.malformed .expectingColon r.length)
  | _ => .error (.malformed .expectingName cs.length)

/-- Reads members up to the closing brace, at most `n` of them. -/
def readMembers (item : List Char → Result Json) : Nat → List Char → Result (List (String × Json))
  | 0, cs => .error (.malformed .expectingComma cs.length)
  | n + 1, cs =>
    match readName cs with
    | .error f => .error f
    | .ok (name, r) =>
      match item r with
      | .error f => .error f
      | .ok (v, r) =>
        match skip r with
        | '}' :: r => .ok ([(name, v)], r)
        | ',' :: r =>
          match readMembers item n (skip r) with
          | .ok (ms, rest) => .ok ((name, v) :: ms, rest)
          | .error f => .error f
        | r => .error (.malformed .expectingComma r.length)

/-- Reads a value that nests at most `depth` containers. -/
def readValue (depth : Nat) (cs : List Char) : Result Json :=
  match cs with
  | '"' :: r =>
    match readString r with
    | .ok (s, rest) => .ok (.str s, rest)
    | .error f => .error f
  | '[' :: r =>
    match depth with
    | 0 => .error (.tooDeep .array)
    | d + 1 =>
      match skip r with
      | ']' :: r => .ok (.arr [], r)
      | r =>
        match readItems (readValue d) (r.length + 1) r with
        | .ok (vs, rest) => .ok (.arr vs, rest)
        | .error f => .error f
  | '{' :: r =>
    match depth with
    | 0 => .error (.tooDeep .object)
    | d + 1 =>
      match skip r with
      | '}' :: r => .ok (.obj [], r)
      | r =>
        match readMembers (readValue d) (r.length + 1) r with
        | .ok (ms, rest) => .ok (.obj (ofPairs ms), rest)
        | .error f => .error f
  | [] => .error (.malformed .expectingValue 0)
  | c :: r => readScalar (c :: r)

/-- Reads a whole text as one document. -/
def readDocument (cs : List Char) : Except Fault Json :=
  match cs with
  | '\uFEFF' :: _ => .error (.malformed .byteOrderMark cs.length)
  | _ =>
    match readValue depthLimit (skip cs) with
    | .error f => .error f
    | .ok (v, r) =>
      match skip r with
      | [] => .ok v
      | r => .error (.malformed .extraData r.length)

/-! ## Places in the text -/

/-- The line and the column, both from one, of the character after a part of the text. -/
def location (before : List Char) : Nat × Nat :=
  (before.count '\n' + 1, (before.reverse.takeWhile (· ≠ '\n')).length + 1)

end Reader

/-! ## Documents from input -/

/-- Why an input is no document. -/
inductive Problem where
  | noInput
  | malformed (cause : Malformation) (line column : Nat)
  | refused (fault : Reader.Fault)
  | undecodable (fault : Utf8.Fault)
deriving DecidableEq, Repr

/-- A refused input, with the name by which messages call it. -/
structure ParseError where
  source : String
  problem : Problem
deriving DecidableEq, Repr

/-- The wording of a fault without a place. -/
def Reader.Fault.message : Reader.Fault → String
  | .malformed cause _ => cause.message
  | .constant name => name ++ " is not valid JSON"
  | .tooDeep .array => "maximum recursion depth exceeded while decoding a JSON array from a unicode string"
  | .tooDeep .object => "maximum recursion depth exceeded while decoding a JSON object from a unicode string"
  | .digits f => f.message

/-- The line and the column of a refusal, where it has them. -/
def ParseError.place? (e : ParseError) : Option (Nat × Nat) :=
  match e.problem with
  | .malformed _ line column => some (line, column)
  | _ => none

/-- The wording of a refusal. -/
def ParseError.message (e : ParseError) : String :=
  match e.problem with
  | .noInput => "No input provided"
  | .malformed cause line column =>
    "Invalid " ++ e.source ++ ": " ++ cause.message ++ " (line " ++ toString line ++ ", column "
      ++ toString column ++ ")"
  | .refused f => "Invalid " ++ e.source ++ ": " ++ f.message
  | .undecodable f => "Invalid " ++ e.source ++ ": " ++ f.message

/-- The problem that a fault is in a given text. -/
def Problem.ofFault (cs : List Char) : Reader.Fault → Problem
  | .malformed cause left =>
    let (line, column) := Reader.location (cs.take (cs.length - left))
    .malformed cause line column
  | f => .refused f

/-- Reads characters as a document. -/
def parseChars (cs : List Char) (source : String := "JSON") : Except ParseError Json :=
  match Reader.readDocument cs with
  | .ok v => .ok v
  | .error f => .error ⟨source, Problem.ofFault cs f⟩

/-- Reads a text as a document. -/
def parse (s : String) (source : String := "JSON") : Except ParseError Json :=
  parseChars s.toList source

/-- Reads a text as a document, if there is one. -/
def parse? (s : Option String) (source : String := "JSON") : Except ParseError Json :=
  match s with
  | some s => parse s source
  | none => .error ⟨source, .noInput⟩

/-- Reads bytes as a document. -/
def parseBytes (bytes : List Nat) (source : String := "JSON") : Except ParseError Json :=
  match Utf8.decode bytes with
  | .ok cs => parseChars cs source
  | .error f => .error ⟨source, .undecodable f⟩

end DocDesk.Json
