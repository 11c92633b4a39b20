import DocDesk.Yaml.Token.Basic

/-!
# Anchors, tags and directives

The tokens that say something about a node or a document: names of anchors and aliases, tags with
their handle, and the directives for the version and for handles.

Main definitions: `tagToken` and `directiveToken`.
-/

namespace DocDesk.Yaml

/-! ## Anchors and aliases -/

/-- A character that may follow the name of an anchor. -/
def endsAnchor (ch : Char) : Bool :=
  isBlankOrBreak ch || ['?', ':', ',', ']', '}', '%', '@', '\x60'].contains ch

/-- The name after the mark of an anchor or alias. -/
def anchorName (what : String) (c : Cursor) : Except Fault (Cut String) :=
  let (name, next) := c.advance.span isWordChar
  if name.isEmpty then
    malformed (.scanning what) c.place (.expected .word next.peek) next.place
  else if endsAnchor next.peek then .ok (String.ofList name, next)
  else malformed (.scanning what) c.place (.expected .word next.peek) next.place

/-! ## Tags -/

/-- A character of a tag's text. -/
def isUriChar (ch : Char) : Bool :=
  ch.isAlphanum || ['-', ';', '/', '?', ':', '@', '&', '=', '+', '$', ',', '_', '.', '!', '~', '*',
    '\'', '(', ')', '[', ']', '%'].contains ch

/-- The bytes of a run of escapes, each a percent sign and two hexadecimal digits. -/
def uriBytes (what : String) (since : Mark) : Nat → Cursor → Except Fault (Cut (List Nat))
  | 0, c => .ok ([], c)
  | fuel + 1, c =>
    if c.peek = '%' then
      let c := c.advance
      let bad := [c.peek, c.peekAt 1].find? fun ch => !isHexDigit ch
      match bad with
      | some ch => malformed (.scanning what) since (.expected .uriEscape ch) c.place
      | none => do
        let (more, next) ← uriBytes what since fuel (c.forward 2)
        .ok (hexValue [c.peek, c.peekAt 1] :: more, next)
    else .ok ([], c)

/-- The characters of a run of escapes. -/
def uriEscapes (what : String) (since : Mark) (c : Cursor) : Except Fault (Cut (List Char)) := do
  let (bytes, next) ← uriBytes what since c.rest.length c
  match Utf8.decode bytes with
  | .ok cs => .ok (cs, next)
  | .error f => malformed (.scanning what) since (.uriBytes f) c.place

/-- The parts of a tag's text: characters and runs of escapes. -/
def uriParts (what : String) (since : Mark) : Nat → Cursor → Except Fault (Cut (List Char))
  | 0, c => .ok ([], c)
  | fuel + 1, c => do
    let (plain, next) := c.span fun ch => isUriChar ch && ch ≠ '%'
    if next.peek = '%' then
      let (escaped, next) ← uriEscapes what since next
      let (more, next) ← uriParts what since fuel next
      .ok (plain ++ escaped ++ more, next)
    else .ok (plain, next)

/-- The text of a tag or of a handle's expansion, which is not empty. -/
def tagUri (what : String) (since : Mark) (c : Cursor) : Except Fault (Cut String) := do
  if isUriChar c.peek then
    let (cs, next) ← uriParts what since c.rest.length c
    .ok (String.ofList cs, next)
  else malformed (.parsing what) since (.expected .uri c.peek) c.place

/-- A handle: an exclamation mark, or a word between two. -/
def tagHandle (what : String) (since : Mark) (c : Cursor) : Except Fault (Cut String) :=
  if c.peek ≠ '!' then malformed (.scanning what) since (.expected .bang c.peek) c.place
  else if c.peekAt 1 = ' ' then .ok ("!", c.advance)
  else
    let (word, next) := c.advance.span isWordChar
    if next.peek = '!' then .ok (String.ofList ('!' :: word ++ ['!']), next.advance)
    else malformed (.scanning what) since (.expected .bang next.peek) next.place

/-- The words of a tag: its handle, if it has one, and what follows it. -/
def tagWords (c : Cursor) : Except Fault (Cut (Option String × String)) := do
  let since := c.place
  if c.peekAt 1 = '<' then
    let (uri, next) ← tagUri "a tag" since (c.forward 2)
    if next.peek = '>' then .ok ((none, uri), next.advance)
    else malformed (.parsing "a tag") since (.expected .tagEnd next.peek) next.place
  else if isBlankOrBreak (c.peekAt 1) then .ok ((none, "!"), c.advance)
  else
    let named := ((c.rest.drop 1).takeWhile fun ch => !Cursor.isBlankOrStop ch).contains '!'
    let (handle, next) ← if named then tagHandle "a tag" since c else .ok ("!", c.advance)
    let (suffix, next) ← tagUri "a tag" since next
    .ok ((some handle, suffix), next)

/-- A tag. -/
def tagToken (c : Cursor) : Except Fault (Cut Token) := do
  let ((handle, suffix), next) ← tagWords c
  if Cursor.isBlankOrStop next.peek then .ok (⟨.tag handle suffix, c.place, next.place⟩, next)
  else malformed (.scanning "a tag") c.place (.expected .blank next.peek) next.place

/-! ## Directives -/

/-- A number of a version. -/
def versionNumber (since : Mark) (c : Cursor) : Except Fault (Cut Nat) :=
  let (ds, next) := c.span Char.isDigit
  if ds.isEmpty then
    malformed (.scanning "a directive") since (.expected .digit c.peek) c.place
  else match readDigits ds with
    | .ok n => .ok (n, next)
    | .error f => .error (.value (.whole (.digits f)))

/-- The version that a directive names. -/
def versionDirective (since : Mark) (c : Cursor) : Except Fault (Cut Directive) := do
  let (major, next) ← versionNumber since c.skipBlanks
  if next.peek ≠ '.' then
    malformed (.scanning "a directive") since (.expected .versionPoint next.peek) next.place
  else
    let (minor, next) ← versionNumber since next.advance
    if Cursor.isBlankOrStop next.peek then .ok (.version major minor, next)
    else malformed (.scanning "a directive") since (.expected .versionEnd next.peek) next.place

/-- The handle that a directive names, with its expansion. -/
def handleDirective (since : Mark) (c : Cursor) : Except Fault (Cut Directive) := do
  let (handle, next) ← tagHandle "a directive" since c.skipBlanks
  if next.peek ≠ ' ' then
    malformed (.scanning "a directive") since (.expected .blank next.peek) next.place
  else
    let (expansion, next) ← tagUri "a directive" since next.skipBlanks
    if Cursor.isBlankOrStop next.peek then .ok (.handle handle expansion, next)
    else malformed (.scanning "a directive") since (.expected .blank next.peek) next.place

/-- The name of a directive. -/
def directiveName (since : Mark) (c : Cursor) : Except Fault (Cut (List Char)) :=
  let (name, next) := c.span isWordChar
  if !name.isEmpty && Cursor.isBlankOrStop next.peek then .ok (name, next)
  else malformed (.scanning "a directive") since (.expected .word next.peek) next.place

/-- A directive with the rest of its line. -/
def directiveToken (c : Cursor) : Except Fault (Cut Token) := do
  let since := c.place
  let (name, next) ← directiveName since c.advance
  let (content, next) ←
    if name = "YAML".toList then versionDirective since next
    else if name = "TAG".toList then handleDirective since next
    else .ok (.other, next)
  let stop := next.place
  let next := if content = .other then next.skip (fun ch => !Cursor.isLineEnd ch) else next
  let next ← restOfLine (.scanning "a directive") since next
  .ok (⟨.directive content, since, stop⟩, next)

end DocDesk.Yaml
