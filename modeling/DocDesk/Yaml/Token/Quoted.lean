import DocDesk.Yaml.Token.Basic

/-!
# Quoted scalars

A text between single or double quotes.  A line break within it, with the blanks around it, counts as
one blank, and each empty line after it as a line feed.  Between single quotes a quote is written
twice; between double quotes there are escapes.

Main statement: `escapes_of_short` (the short escapes that are written are read back).
-/

namespace DocDesk.Yaml

namespace Quoted

/-- The characters that escapes of one letter stand for. -/
def escapes : List (Char × Char) :=
  [('0', '\x00'), ('a', '\x07'), ('b', '\x08'), ('t', '\t'), ('\t', '\t'), ('n', '\n'), ('v', '\x0b'),
    ('f', '\x0c'), ('r', '\r'), ('e', '\x1b'), (' ', ' '), ('"', '"'), ('\\', '\\'), ('/', '/'),
    ('N', '\x85'), ('_', '\xa0'), ('L', '\u2028'), ('P', '\u2029')]

/-- The number of hexadecimal digits behind the letters of numbered escapes. -/
def escapeDigits : List (Char × Nat) := [('x', 2), ('u', 4), ('U', 8)]

/-- The character with a number; one half of a pair stands for no character. -/
def charOf (n : Nat) : Except Fault Char :=
  if h : n.isValidChar then .ok ⟨n.toUInt32, by
    have hlt : n < 4294967296 := by rcases h with h | h <;> omega
    simpa [UInt32.isValidChar, Nat.toUInt32, UInt32.toNat_ofNat', Nat.mod_eq_of_lt hlt] using h⟩
  else if n < 0x110000 then .ok '\uFFFD'
  else .error (.value (.codePoint n))

/-- The place where a quoted scalar ends or goes on with blanks. -/
def isGapStart (ch : Char) : Bool :=
  ch = '\'' || ch = '"' || ch = '\\' || isBlankOrBreak ch

/-- The line breaks after a first one, with the blanks around them. -/
def breaks (since : Mark) : Nat → Cursor → Except Fault (Cut (List Char))
  | 0, c => .ok ([], c)
  | fuel + 1, c =>
    if c.atSeparator then malformed (.scanning "a quoted scalar") since .separatorInQuotes c.place
    else
      let c := c.skip fun ch => ch = ' ' || ch = '\t'
      match c.lineBreak? with
      | none => .ok ([], c)
      | some (br, next) => do
        let (more, next) ← breaks since fuel next
        .ok (br :: more, next)

/-- A numbered escape, after its letter. -/
def numberedEscape (since : Mark) (digits : Nat) (c : Cursor) : Except Fault (Cut Char) :=
  let shown := (List.range digits).map c.peekAt
  match shown.find? fun ch => !isHexDigit ch with
  | some ch =>
    malformed (.scanning "a double-quoted scalar") since (.expected (.hexEscape digits) ch) c.place
  | none => do
    let ch ← charOf (hexValue shown)
    .ok (ch, c.forward digits)

/-- An escape, after its backslash. -/
def escape (since : Mark) (c : Cursor) : Except Fault (Cut (List Char)) :=
  match escapes.lookup c.peek with
  | some ch => .ok ([ch], c.advance)
  | none =>
    match escapeDigits.lookup c.peek with
    | some digits => do
      let (ch, next) ← numberedEscape since digits c.advance
      .ok ([ch], next)
    | none =>
      match c.lineBreak? with
      | some (_, next) => breaks since next.rest.length next
      | none =>
        malformed (.scanning "a double-quoted scalar") since (.unknownEscape c.peek) c.place

/-- The part up to the closing quote or the next blank. -/
def solid (double : Bool) (since : Mark) : Nat → Cursor → Except Fault (Cut (List Char))
  | 0, c => .ok ([], c)
  | fuel + 1, c => do
    let (run, c) := c.span fun ch => !isGapStart ch
    let ch := c.peek
    if !double && ch = '\'' && c.peekAt 1 = '\'' then
      let (more, next) ← solid double since fuel (c.forward 2)
      .ok (run ++ '\'' :: more, next)
    else if (double && ch = '\'') || (!double && (ch = '"' || ch = '\\')) then
      let (more, next) ← solid double since fuel c.advance
      .ok (run ++ ch :: more, next)
    else if double && ch = '\\' then
      let (part, next) ← escape since c.advance
      let (more, next) ← solid double since fuel next
      .ok (run ++ part ++ more, next)
    else .ok (run, c)

/-- Blanks within the scalar, or a line break with what belongs to it. -/
def gap (since : Mark) (c : Cursor) : Except Fault (Cut (List Char)) :=
  let (blanks, c) := c.span fun ch => ch = ' ' || ch = '\t'
  if c.rest.isEmpty then malformed (.scanning "a quoted scalar") since .unexpectedEnd c.place
  else match c.lineBreak? with
    | none => .ok (blanks, c)
    | some (br, next) => do
      let (more, next) ← breaks since next.rest.length next
      .ok ((if br ≠ '\n' then [br] else if more.isEmpty then [' '] else []) ++ more, next)

/-- The text up to the closing quote. -/
def body (double : Bool) (since : Mark) : Nat → Cursor → Except Fault (Cut (List Char))
  | 0, c => .ok ([], c)
  | fuel + 1, c => do
    let (part, c) ← solid double since (c.rest.length + 1) c
    if c.peek = (if double then '"' else '\'') then .ok (part, c)
    else
      let (blanks, c) ← gap since c
      let (more, c) ← body double since fuel c
      .ok (part ++ blanks ++ more, c)

end Quoted

/-- A quoted scalar. -/
def quotedToken (double : Bool) (c : Cursor) : Except Fault (Cut Token) := do
  let (text, next) ← Quoted.body double c.place (c.rest.length + 1) c.advance
  let next := next.advance
  .ok (⟨.scalar text false, c.place, next.place⟩, next)

/-- The short escapes that are written are read back. -/
theorem Quoted.escapes_of_short :
    ∀ p ∈ Style.shortEscapes, Quoted.escapes.lookup p.2 = some p.1 := by decide

end DocDesk.Yaml
