import DocDesk.Text.Quoted
import DocDesk.Yaml.Resolution

/-!
# Scalar styles

A text is written plain where nothing in it could be taken for something else, between single quotes
where its blanks and line breaks survive there, and between double quotes with escapes otherwise.

Main definitions: `Style.choose` and `Style.write`.  Main statement: `doubleQuotedChar_of_plain`.
-/

namespace DocDesk.Yaml

/-- A character that ends a line within a text. -/
def isBreak (c : Char) : Bool := c = '\n' || c = '\x85' || c = '\u2028' || c = '\u2029'

/-- A blank, a line end of any kind, or the end of the text. -/
def isBlankOrBreak (c : Char) : Bool :=
  c = '\x00' || c = ' ' || c = '\t' || c = '\r' || isBreak c

/-- A character that needs no escape in any style. -/
def isRaw (c : Char) : Bool :=
  let n := c.toNat
  c = '\n' || (0x20 ≤ n && n ≤ 0x7E) || n = 0x85 ||
    (((0xA0 ≤ n && n ≤ 0xD7FF) || (0xE000 ≤ n && n ≤ 0xFFFD) || (0x10000 ≤ n && n < 0x10FFFF))
      && n ≠ 0xFEFF)

namespace Style

/-- A text that has line breaks. -/
def isMultiline (cs : List Char) : Bool := cs.any isBreak

/-- A blank stands directly before a line break. -/
def hasBlankBeforeBreak : List Char → Bool
  | a :: b :: r => (a = ' ' && isBreak b) || hasBlankBeforeBreak (b :: r)
  | _ => false

/-- A blank stands directly after a line break. -/
def hasBlankAfterBreak : List Char → Bool
  | a :: b :: r => (isBreak a && b = ' ') || hasBlankAfterBreak (b :: r)
  | _ => false

/-- The next character is a blank or there is none. -/
def blankFollows : List Char → Bool
  | [] => true
  | c :: _ => isBlankOrBreak c

/-- The characters that no plain scalar starts with. -/
def leadingIndicators : List Char :=
  ['#', ',', '[', ']', '{', '}', '&', '*', '!', '|', '>', '\'', '"', '%', '@', '\x60']

/-- The text starts as a mark, a key or an entry would. -/
def startsAsIndicator (cs : List Char) : Bool :=
  match cs with
  | [] => false
  | c :: r =>
    leadingIndicators.contains c || ((c = '?' || c = ':' || c = '-') && blankFollows r)

/-- After the first character stands a colon before a blank, or a hash after one. -/
def holdsIndicator : List Char → Bool
  | a :: b :: r =>
    (b = ':' && blankFollows r) || (b = '#' && isBlankOrBreak a) || holdsIndicator (b :: r)
  | _ => false

/-- The text starts with the mark of a document. -/
def startsDocument : List Char → Bool
  | '-' :: '-' :: '-' :: _ => true
  | '.' :: '.' :: '.' :: _ => true
  | _ => false

/-- Blanks or line breaks stand at one of the ends. -/
def hasOuterBlank (cs : List Char) : Bool :=
  let outer (c : Char) : Bool := c = ' ' || isBreak c
  cs.head?.any outer || cs.getLast?.any outer

/-- Plain style keeps the text apart from everything around it. -/
def isPlainSafe (cs : List Char) : Bool :=
  !(hasOuterBlank cs || isMultiline cs || !cs.all isRaw || startsAsIndicator cs || holdsIndicator cs
    || startsDocument cs)

/-- Single quotes keep the text as it is. -/
def isSingleSafe (cs : List Char) : Bool :=
  !(hasBlankAfterBreak cs || hasBlankBeforeBreak cs || !cs.all isRaw)

/-! ## Quoted forms -/

/-- Each line break of a run: a line feed as the line end, any other as itself. -/
def breakRun (run : List Char) : List Char :=
  if run.head? = some '\n' then '\n' :: run else run

/-- A text between single quotes, its continuation lines indented. -/
def singleQuotedBody (indent : Nat) : List Char → List Char
  | [] => []
  | c :: r =>
    if c = '\'' then '\'' :: '\'' :: singleQuotedBody indent r
    else if isBreak c then
      let run := r.takeWhile isBreak
      breakRun (c :: run) ++ List.replicate indent ' ' ++ singleQuotedBody indent (r.dropWhile isBreak)
    else c :: singleQuotedBody indent r
termination_by cs => cs.length
decreasing_by
  all_goals simp
  have := (r.dropWhile_suffix isBreak).length_le
  omega

/-- A text between single quotes. -/
def singleQuoted (indent : Nat) (cs : List Char) : List Char :=
  '\'' :: singleQuotedBody indent cs ++ ['\'']

/-- The escapes of one letter. -/
def shortEscapes : List (Char × Char) :=
  [('\x00', '0'), ('\x07', 'a'), ('\x08', 'b'), ('\t', 't'), ('\n', 'n'), ('\x0b', 'v'),
    ('\x0c', 'f'), ('\r', 'r'), ('\x1b', 'e'), ('"', '"'), ('\\', '\\'), ('\x85', 'N'),
    ('\u2028', 'L'), ('\u2029', 'P')]

/-- A character that double quotes hold as it is. -/
def isDoubleSafe (c : Char) : Bool :=
  let n := c.toNat
  c ≠ '"' && c ≠ '\\' && c ≠ '\u2028' && c ≠ '\u2029' && c ≠ '\uFEFF' &&
    ((0x20 ≤ n && n ≤ 0x7E) || (0xA0 ≤ n && n ≤ 0xD7FF) || (0xE000 ≤ n && n ≤ 0xFFFD))

/-- The digits of a number in base sixteen, upper case, filled with zeros to a width. -/
def upperHex (width n : Nat) : List Char := (Text.hexText width n).map Char.toUpper

/-- One character between double quotes. -/
def doubleQuotedChar (c : Char) : List Char :=
  if isDoubleSafe c then [c]
  else match shortEscapes.lookup c with
    | some e => ['\\', e]
    | none =>
      if c.toNat ≤ 0xFF then '\\' :: 'x' :: upperHex 2 c.toNat
      else if c.toNat ≤ 0xFFFF then '\\' :: 'u' :: upperHex 4 c.toNat
      else '\\' :: 'U' :: upperHex 8 c.toNat

/-- A text between double quotes. -/
def doubleQuoted (cs : List Char) : List Char := '"' :: cs.flatMap doubleQuotedChar ++ ['"']

/-- The style chosen for a text: plain only where the spelling stands for a text. -/
inductive Choice where
  | plain
  | single
  | double
deriving DecidableEq, Repr

/-- The style of a text; as the key of a line it stays on that line. -/
def choose (asKey : Bool) (cs : List Char) : Choice :=
  if resolve cs = .str && isPlainSafe cs then .plain
  else if isSingleSafe cs && !(asKey && isMultiline cs) then .single
  else .double

/-- A text in its style. -/
def write (asKey : Bool) (indent : Nat) (cs : List Char) : List Char :=
  match choose asKey cs with
  | .plain => cs
  | .single => singleQuoted indent cs
  | .double => doubleQuoted cs

/-- A character that needs no escape is written as it is. -/
theorem doubleQuotedChar_of_plain {c : Char} (h : isDoubleSafe c) : doubleQuotedChar c = [c] := by
  simp [doubleQuotedChar, h]

end Style

end DocDesk.Yaml
