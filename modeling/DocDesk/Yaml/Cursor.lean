import DocDesk.Yaml.Style

/-!
# Places in a YAML text

A cursor is what is left of a text together with the place reached: how many characters stand before
it, and its line and column.  A place is shown with the part of its line around it and a mark under
the character.
-/

namespace DocDesk.Yaml

/-- A place: the characters before it, its line and its column, each counted from zero. -/
structure Mark where
  index : Nat
  line : Nat
  column : Nat
deriving DecidableEq, Repr, Inhabited

/-- The start of a text. -/
def Mark.start : Mark := ⟨0, 0, 0⟩

/-- A place together with the text from it on. -/
structure Cursor where
  place : Mark
  rest : List Char
deriving DecidableEq, Repr

namespace Cursor

/-- The cursor at the start of a text. -/
def ofChars (cs : List Char) : Cursor := ⟨Mark.start, cs⟩

/-- The column of the cursor. -/
def column (c : Cursor) : Nat := c.place.column

/-- The character at the cursor; a null character at the end. -/
def peek (c : Cursor) : Char := c.rest.head?.getD '\x00'

/-- The character some places on; a null character past the end. -/
def peekAt (c : Cursor) (n : Nat) : Char := (c.rest.drop n).head?.getD '\x00'

/-- The character ends its line; a carriage return does so unless a line feed follows. -/
def endsLine (ch : Char) (rest : List Char) : Bool :=
  isBreak ch || (ch = '\r' && rest.head? ≠ some '\n')

/-- The place after a character. -/
def next (place : Mark) (ch : Char) (rest : List Char) : Mark :=
  if endsLine ch rest then ⟨place.index + 1, place.line + 1, 0⟩
  else ⟨place.index + 1, place.line, if ch = '\uFEFF' then place.column else place.column + 1⟩

/-- The cursor after the character at it. -/
def advance (c : Cursor) : Cursor :=
  match c.rest with
  | [] => c
  | ch :: r => ⟨next c.place ch r, r⟩

/-- The cursor some characters on. -/
def forward : Nat → Cursor → Cursor
  | 0, c => c
  | n + 1, c => forward n c.advance

/-- The characters of a class from the cursor on, with the cursor after them. -/
def span (p : Char → Bool) (c : Cursor) : List Char × Cursor :=
  let cs := c.rest.takeWhile p
  (cs, c.forward cs.length)

/-- The cursor after the characters of a class. -/
def skip (p : Char → Bool) (c : Cursor) : Cursor := (c.span p).2

/-- The cursor after blanks. -/
def skipBlanks (c : Cursor) : Cursor := c.skip (· = ' ')

/-- A character that starts a line break. -/
def isLineEnd (ch : Char) : Bool := ch = '\r' || isBreak ch

/-- The end of a line or of the text. -/
def isLineEndOrStop (ch : Char) : Bool := ch = '\x00' || isLineEnd ch

/-- A blank, the end of a line or the end of the text. -/
def isBlankOrStop (ch : Char) : Bool := ch = ' ' || isLineEndOrStop ch

/-- The line break at the cursor, with the text it stands for, if there is one. -/
def lineBreak? (c : Cursor) : Option (Char × Cursor) :=
  match c.rest with
  | '\r' :: '\n' :: _ => some ('\n', c.forward 2)
  | ch :: _ =>
    if ch = '\r' ∨ ch = '\n' ∨ ch = '\x85' then some ('\n', c.advance)
    else if ch = '\u2028' ∨ ch = '\u2029' then some (ch, c.advance)
    else none
  | [] => none

/-- The cursor after a line break, if one stands there. -/
def skipLineBreak (c : Cursor) : Cursor := (c.lineBreak?.map Prod.snd).getD c

/-- The cursor after a comment, if one stands there. -/
def skipComment (c : Cursor) : Cursor :=
  if c.peek = '#' then c.skip (fun ch => !isLineEnd ch) else c

/-- Three equal characters that are a word of their own stand at the cursor. -/
def isTriple (ch : Char) (c : Cursor) : Bool :=
  match c.rest with
  | a :: b :: d :: r => a = ch && b = ch && d = ch && Style.blankFollows r
  | _ => false

/-- A mark between documents stands at the cursor. -/
def atSeparator (c : Cursor) : Bool := c.isTriple '-' || c.isTriple '.'

end Cursor

namespace Mark

/-- The half of a line that is shown on either side of a place. -/
def halfWidth : Nat := 36

/-- The part of the line before a place, nearest first, cut where it is too long. -/
def shownBefore (before : List Char) : Bool × List Char :=
  let line := before.takeWhile fun ch => !Cursor.isLineEnd ch
  if halfWidth < line.length then (true, line.take (halfWidth + 1 - 5)) else (false, line)

/-- The part of the line from a place on, cut where it is too long. -/
def shownAfter (after : List Char) : Bool × List Char :=
  let line := after.takeWhile fun ch => !Cursor.isLineEnd ch
  if halfWidth < line.length then (true, line.take (halfWidth + 1 - 5)) else (false, line)

/-- The mark of a cut. -/
def dots : List Char := " ... ".toList

/-- The line around a place, and a mark under the place. -/
def snippet (text : List Char) (m : Mark) : List Char :=
  let (cutBefore, before) := shownBefore (text.take m.index).reverse
  let (cutAfter, after) := shownAfter (text.drop m.index)
  let head := if cutBefore then dots else []
  let tail := if cutAfter then dots else []
  List.replicate 4 ' ' ++ head ++ before.reverse ++ after ++ tail
    ++ '\n' :: List.replicate (4 + before.length + head.length) ' ' ++ ['^']

/-- A place in messages. -/
def message (text : List Char) (m : Mark) : List Char :=
  "  in \"<unicode string>\", line ".toList ++ natText (m.line + 1) ++ ", column ".toList
    ++ natText (m.column + 1) ++ ':' :: '\n' :: snippet text m

end Mark

end DocDesk.Yaml
