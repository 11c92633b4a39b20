import DocDesk.Yaml.Fault

/-!
# Tokens of YAML text

The parts that a YAML text is cut into.  Where indentation opens or closes a block, a token without
characters of its own says so.

Main definition: `Token`.
-/

namespace DocDesk.Yaml

/-- What a directive at the start of a document says. -/
inductive Directive where
  | version (major minor : Nat)
  | handle (handle expansion : String)
  | other
deriving DecidableEq, Repr

/-- The kinds of token. -/
inductive Token.Kind where
  | streamStart
  | streamEnd
  | directive (content : Directive)
  | documentStart
  | documentEnd
  | blockSequenceStart
  | blockMappingStart
  | blockEnd
  | flowSequenceStart
  | flowSequenceEnd
  | flowMappingStart
  | flowMappingEnd
  | blockEntry
  | flowEntry
  | key
  | value
  | alias (name : String)
  | anchor (name : String)
  | tag (handle : Option String) (suffix : String)
  | scalar (text : List Char) (plain : Bool)
deriving DecidableEq, Repr

/-- A token with the places where it starts and stops. -/
structure Token where
  kind : Token.Kind
  start : Mark
  stop : Mark
deriving DecidableEq, Repr

namespace Token

/-- The name of a kind in messages. -/
def Kind.name : Kind → String
  | .streamStart => "<stream start>"
  | .streamEnd => "<stream end>"
  | .directive _ => "<directive>"
  | .documentStart => "<document start>"
  | .documentEnd => "<document end>"
  | .blockSequenceStart => "<block sequence start>"
  | .blockMappingStart => "<block mapping start>"
  | .blockEnd => "<block end>"
  | .flowSequenceStart => "["
  | .flowSequenceEnd => "]"
  | .flowMappingStart => "\x7b"
  | .flowMappingEnd => "\x7d"
  | .blockEntry => "-"
  | .flowEntry => ","
  | .key => "?"
  | .value => ":"
  | .alias _ => "<alias>"
  | .anchor _ => "<anchor>"
  | .tag _ _ => "<tag>"
  | .scalar _ _ => "<scalar>"

/-- A token without characters of its own. -/
def virtual (kind : Kind) (place : Mark) : Token := ⟨kind, place, place⟩

end Token

/-! ## Cutting tokens off -/

/-- Something read from the front of a text, with the cursor after it. -/
abbrev Cut (α : Type) := α × Cursor

/-- A malformed place in a context that started at a place. -/
def malformed (context : Context) (since : Mark) (problem : Problem) (place : Mark) :
    Except Fault α :=
  .error (.malformed ⟨some context, some since, problem, place⟩)

/-- A malformed place without a context. -/
def malformedAt (problem : Problem) (place : Mark) : Except Fault α :=
  .error (.malformed ⟨none, none, problem, place⟩)

/-- A character of a word: a letter, a digit, a hyphen or an underscore. -/
def isWordChar (ch : Char) : Bool := ch.isAlphanum || ch = '-' || ch = '_'

/-- A hexadecimal digit. -/
def isHexDigit (ch : Char) : Bool :=
  ch.isDigit || ('a' ≤ ch && ch ≤ 'f') || ('A' ≤ ch && ch ≤ 'F')

/-- The number that hexadecimal digits write. -/
def hexValue (cs : List Char) : Nat :=
  cs.foldl (fun n ch =>
    n * 16 + (if ch.isDigit then ch.toNat - '0'.toNat
      else if 'a' ≤ ch then ch.toNat - 'a'.toNat + 10
      else ch.toNat - 'A'.toNat + 10)) 0

/-- Skips blanks and a comment up to the end of a line, and the line break. -/
def restOfLine (context : Context) (since : Mark) (c : Cursor) : Except Fault Cursor :=
  let c := c.skipBlanks.skipComment
  if Cursor.isLineEndOrStop c.peek then .ok c.skipLineBreak
  else malformed context since (.expected .commentOrBreak c.peek) c.place

end DocDesk.Yaml
