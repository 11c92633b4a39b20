/-!
# Base64

Bytes written with sixty-four characters, four of them for three bytes.  Characters outside the
alphabet are passed over, and equals signs that fill the last group end the text.

Main definition: `decode`.
-/

namespace DocDesk.Base64

/-- Why a text does not decode. -/
inductive Fault where
  /-- One character is left over after whole groups. -/
  | leftOver (count : Nat)
  | padding
deriving DecidableEq, Repr

/-- The wording of a fault. -/
def Fault.message : Fault → String
  | .leftOver n =>
    "Invalid base64-encoded string: number of data characters (" ++ toString n
      ++ ") cannot be 1 more than a multiple of 4"
  | .padding => "Incorrect padding"

/-- The characters in the order of their values. -/
def alphabet : List Char :=
  "ABCDEFGHIJKLMNOPQRSTUVWXYZabcdefghijklmnopqrstuvwxyz0123456789+/".toList

/-- The value of a character. -/
def value? (c : Char) : Option Nat :=
  if 'A' ≤ c ∧ c ≤ 'Z' then some (c.toNat - 'A'.toNat)
  else if 'a' ≤ c ∧ c ≤ 'z' then some (c.toNat - 'a'.toNat + 26)
  else if '0' ≤ c ∧ c ≤ '9' then some (c.toNat - '0'.toNat + 52)
  else if c = '+' then some 62
  else if c = '/' then some 63
  else none

/-- Takes the characters one by one.  `place` counts the characters of the present group, `left` holds
the bits of it that make no byte yet, `pads` the equals signs since the last character, and `done` the
bytes so far, newest first. -/
def decodeFrom (place left pads : Nat) (done : List Nat) : List Char → Except Fault (List Nat)
  | [] =>
    if place = 0 then .ok done.reverse
    else if place = 1 then .error (.leftOver (done.length / 3 * 4 + 1))
    else .error .padding
  | c :: cs =>
    if c = '=' then
      if 2 ≤ place ∧ 4 ≤ place + pads + 1 then .ok done.reverse
      else decodeFrom place left (if 2 ≤ place then pads + 1 else pads) done cs
    else match value? c with
      | none => decodeFrom place left pads done cs
      | some v =>
        match place with
        | 0 => decodeFrom 1 v 0 done cs
        | 1 => decodeFrom 2 (v % 16) 0 ((left * 4 + v / 16) :: done) cs
        | 2 => decodeFrom 3 (v % 4) 0 ((left * 16 + v / 4) :: done) cs
        | _ => decodeFrom 0 0 0 ((left * 64 + v) :: done) cs

/-- The bytes that a text encodes. -/
def decode (cs : List Char) : Except Fault (List Nat) := decodeFrom 0 0 0 [] cs

end DocDesk.Base64
