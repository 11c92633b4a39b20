import DocDesk.Text.Quoted

/-!
# UTF-8 text

Reading bytes as UTF-8.  A fault names the byte or bytes that cannot continue and why: a byte that
starts nothing, a byte that does not continue the sequence begun, or an end within a sequence.  A
lenient reading puts the replacement character in the place of each faulty run.
-/

namespace DocDesk.Utf8

/-- Why bytes are not UTF-8 text. -/
inductive Reason where
  | invalidStart
  | invalidContinuation
  | unexpectedEnd
deriving DecidableEq, Repr

/-- A fault: the bytes from `position` on, `count` of them, cannot be read; `byte` is the first. -/
structure Fault where
  position : Nat
  count : Nat
  byte : Nat
  reason : Reason
deriving DecidableEq, Repr

/-- The wording of a reason. -/
def Reason.message : Reason → String
  | .invalidStart => "invalid start byte"
  | .invalidContinuation => "invalid continuation byte"
  | .unexpectedEnd => "unexpected end of data"

/-- The wording of a fault. -/
def Fault.message (f : Fault) : String :=
  let place :=
    if f.count = 1 then
      "byte 0x" ++ String.ofList (Text.hexText 2 f.byte) ++ " in position " ++ toString f.position
    else "bytes in position " ++ toString f.position ++ "-" ++ toString (f.position + f.count - 1)
  "'utf-8' codec can't decode " ++ place ++ ": " ++ f.reason.message

/-- The continuation ranges that a lead byte demands, with the bits it carries itself. -/
def leadPlan (b : Nat) : Option (Nat × List (Nat × Nat)) :=
  let c := (0x80, 0xBF)
  if b < 0x80 then some (b, [])
  else if b < 0xC2 then none
  else if b < 0xE0 then some (b - 0xC0, [c])
  else if b = 0xE0 then some (0, [(0xA0, 0xBF), c])
  else if b = 0xED then some (0xD, [(0x80, 0x9F), c])
  else if b < 0xF0 then some (b - 0xE0, [c, c])
  else if b = 0xF0 then some (0, [(0x90, 0xBF), c, c])
  else if b < 0xF4 then some (b - 0xF0, [c, c, c])
  else if b = 0xF4 then some (4, [(0x80, 0x8F), c, c])
  else none

/-- Reads the continuation bytes of a plan.  A fault gives the number of good bytes read and the
reason. -/
def readTail : Nat → List (Nat × Nat) → List Nat → Except (Nat × Reason) Nat
  | acc, [], _ => .ok acc
  | _, _ :: _, [] => .error (0, .unexpectedEnd)
  | acc, (low, high) :: plan, b :: bs =>
    if low ≤ b ∧ b ≤ high then
      match readTail (acc * 64 + (b - 0x80)) plan bs with
      | .ok n => .ok n
      | .error (good, reason) => .error (good + 1, reason)
    else .error (0, .invalidContinuation)

/-- One step of reading: a character with the number of bytes it takes, or the number of bytes of a
faulty run with the reason. -/
def step (b : Nat) (bs : List Nat) : Except (Nat × Reason) (Char × Nat) :=
  match leadPlan b with
  | none => .error (1, .invalidStart)
  | some (acc, plan) =>
    match readTail acc plan bs with
    | .ok n => .ok (Char.ofNat n, plan.length + 1)
    | .error (good, reason) => .error (good + 1, reason)

/-- Reads bytes from a position on, all of them or up to the first fault.  The first bytes are skipped if
they belong to a character that was read before. -/
def decodeFrom (position : Nat) : Nat → List Nat → Except Fault (List Char)
  | _, [] => .ok []
  | skipped + 1, _ :: bs => decodeFrom position skipped bs
  | 0, b :: bs =>
    match step b bs with
    | .error (count, reason) => .error ⟨position, count, b, reason⟩
    | .ok (c, n) =>
      match decodeFrom (position + n) (n - 1) bs with
      | .ok cs => .ok (c :: cs)
      | .error f => .error f

/-- Reads bytes as UTF-8 text. -/
def decode (bytes : List Nat) : Except Fault (List Char) := decodeFrom 0 0 bytes

/-- Reads bytes as UTF-8 text, with the replacement character for every faulty run.  The first bytes are
skipped if they belong to what was read before. -/
def decodeLenientFrom : Nat → List Nat → List Char
  | _, [] => []
  | skipped + 1, _ :: bs => decodeLenientFrom skipped bs
  | 0, b :: bs =>
    match step b bs with
    | .error (count, _) => '\uFFFD' :: decodeLenientFrom (count - 1) bs
    | .ok (c, n) => c :: decodeLenientFrom (n - 1) bs

/-- Reads bytes as UTF-8 text, with the replacement character for every faulty run. -/
def decodeLenient (bytes : List Nat) : List Char := decodeLenientFrom 0 bytes

end DocDesk.Utf8
