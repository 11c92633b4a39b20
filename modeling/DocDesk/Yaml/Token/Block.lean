import DocDesk.Yaml.Token.Basic

/-!
# Block scalars

A text of indented lines behind a bar or an angle bracket.  Behind a bar the line breaks stay; behind
an angle bracket a single one between lines that start without a blank counts as a blank.  A sign
says what becomes of the line breaks at the end, a digit how far the lines are indented.

Main definition: `blockToken`.
-/

namespace DocDesk.Yaml

namespace Block

/-- What becomes of the line breaks at the end: one is kept, all are, or none is. -/
inductive Chomping where
  | clip
  | keep
  | strip
deriving DecidableEq, Repr

/-- The signs for what becomes of the line breaks at the end. -/
def chomping? (ch : Char) : Option Chomping :=
  if ch = '+' then some .keep else if ch = '-' then some .strip else none

/-- A digit for the indentation, if one stands there. -/
def increment (since : Mark) (c : Cursor) : Except Fault (Cut (Option Nat)) :=
  if c.peek = '0' then malformed (.scanning "a block scalar") since .zeroIndent c.place
  else if c.peek.isDigit then .ok (some (c.peek.toNat - '0'.toNat), c.advance)
  else .ok (none, c)

/-- The sign and the digit of a header, in either order. -/
def indicators (since : Mark) (c : Cursor) : Except Fault (Cut (Chomping × Option Nat)) := do
  let (chomping, digit, next) ←
    match chomping? c.peek with
    | some chomping => do
      let (digit, next) ← increment since c.advance
      Except.ok (chomping, digit, next)
    | none => do
      let (digit, next) ← increment since c
      match digit, chomping? next.peek with
      | some n, some chomping => .ok (chomping, some n, next.advance)
      | _, _ => .ok (.clip, digit, next)
  if Cursor.isBlankOrStop next.peek then .ok ((chomping, digit), next)
  else malformed (.scanning "a block scalar") since (.expected .blockIndicators next.peek) next.place

/-- The empty lines before the first line, with the deepest column that blanks reach. -/
def leading : Nat → Cursor → List Char × Nat × Cursor
  | 0, c => ([], 0, c)
  | fuel + 1, c =>
    let c := c.skipBlanks
    match c.lineBreak? with
    | none => ([], c.column, c)
    | some (br, next) =>
      let (more, deepest, next) := leading fuel next
      (br :: more, max c.column deepest, next)

/-- Passes blanks up to a column. -/
def indentTo (column : Nat) (c : Cursor) : Cursor :=
  c.forward (((c.rest.take (column - c.column)).takeWhile (· = ' ')).length)

/-- The empty lines before the next line. -/
def emptyLines (indent : Nat) : Nat → Cursor → List Char × Cursor
  | 0, c => ([], c)
  | fuel + 1, c =>
    let c := indentTo indent c
    match c.lineBreak? with
    | none => ([], c)
    | some (br, next) =>
      let (more, next) := emptyLines indent fuel next
      (br :: more, next)

/-- Lines that were read: their text, the last line break and the empty lines behind it. -/
structure Lines where
  text : List Char
  lastBreak : List Char
  empty : List Char
  next : Cursor

/-- A blank that keeps a line from being joined. -/
def isIndentChar (ch : Char) : Bool := ch = ' ' || ch = '\t'

/-- The lines from the cursor on, after given empty lines. -/
def lines (folded : Bool) (indent : Nat) : Nat → List Char → Cursor → Lines
  | 0, empty, c => ⟨[], [], empty, c⟩
  | fuel + 1, empty, c =>
    if c.column ≠ indent || c.rest.isEmpty then ⟨[], [], empty, c⟩
    else
      let solid := !isIndentChar c.peek
      let (line, stop) := c.span fun ch => !Cursor.isLineEnd ch
      let br := (stop.lineBreak?.map Prod.fst).toList
      let (between, next) := emptyLines indent stop.rest.length stop.skipLineBreak
      if next.column = indent && !next.rest.isEmpty then
        let joint :=
          if folded && br = ['\n'] && solid && !isIndentChar next.peek then
            (if between.isEmpty then [' '] else [])
          else br
        let more := lines folded indent fuel between next
        { more with text := empty ++ line ++ joint ++ more.text }
      else ⟨empty ++ line, br, between, next⟩

/-- The line breaks at the end that stay. -/
def kept (chomping : Chomping) (lastBreak empty : List Char) : List Char :=
  match chomping with
  | .clip => lastBreak
  | .keep => lastBreak ++ empty
  | .strip => []

end Block

/-- A block scalar within an indentation. -/
def blockToken (folded : Bool) (indent : Int) (c : Cursor) : Except Fault (Cut Token) := do
  let since := c.place
  let ((chomping, increment), next) ← Block.indicators since c.advance
  let next ← restOfLine (.scanning "a block scalar") since next
  let least := (max 1 (indent + 1)).toNat
  let (empty, column, next) :=
    match increment with
    | none =>
      let (empty, deepest, next) := Block.leading (next.rest.length + 1) next
      (empty, max least deepest, next)
    | some n =>
      let column := least + n - 1
      let (empty, next) := Block.emptyLines column (next.rest.length + 1) next
      (empty, column, next)
  let r := Block.lines folded column (next.rest.length + 1) empty next
  let text := r.text ++ Block.kept chomping r.lastBreak r.empty
  .ok (⟨.scalar text false, since, r.next.place⟩, r.next)

end DocDesk.Yaml
