import DocDesk.Yaml.Token.Basic

/-!
# Plain scalars

A text without quotes.  It goes on over blanks and line breaks until a colon or a hash that stands
apart, an indicator of the flow around it, a line that is indented too little, or a mark between
documents.

Main definition: `plainToken`.
-/

namespace DocDesk.Yaml

namespace Plain

/-- A character that ends a plain scalar within brackets or braces. -/
def isFlowIndicator (ch : Char) : Bool := [',', '?', '[', ']', '{', '}'].contains ch

/-- The plain characters at the front, up to a blank or an indicator. -/
def run (flow : Bool) : List Char → List Char
  | [] => []
  | ch :: r =>
    if isBlankOrBreak ch
      || (ch = ':' && (Style.blankFollows r || (flow && r.head?.any fun d => d ≠ '?' && isFlowIndicator d)))
      || (flow && isFlowIndicator ch) then []
    else ch :: run flow r

/-- The line breaks after a first one; none if a mark between documents follows one of them. -/
def gapBreaks : Nat → Cursor → Option (List Char) × Cursor
  | 0, c => (some [], c)
  | fuel + 1, c =>
    let c := c.skipBlanks
    match c.lineBreak? with
    | none => (some [], c)
    | some (br, next) =>
      if next.atSeparator then (none, next)
      else
        let (more, next) := gapBreaks fuel next
        (more.map (br :: ·), next)

/-- What stands between two runs: the text it counts as, empty if the scalar ends here, and the word
on whether a line break was passed. -/
def gap (c : Cursor) : List Char × Bool × Cursor :=
  let (blanks, c) := c.span (· = ' ')
  match c.lineBreak? with
  | none => (blanks, false, c)
  | some (br, next) =>
    if next.atSeparator then ([], true, next)
    else match gapBreaks next.rest.length next with
      | (none, next) => ([], true, next)
      | (some more, next) =>
        ((if br ≠ '\n' then [br] else if more.isEmpty then [' '] else []) ++ more, true, next)

/-- A plain scalar that was read: its text, where it stops, whether a line break was passed after it,
and the cursor behind that. -/
structure Reading where
  text : List Char
  stop : Mark
  passedBreak : Bool
  next : Cursor

/-- The rest of a plain scalar, `blanks` being what stands before it. -/
def continuation (flow : Bool) (indent : Int) : Nat → List Char → Reading → Reading
  | 0, _, before => before
  | fuel + 1, blanks, before =>
    let c := before.next
    let part := if c.peek = '#' then [] else run flow c.rest
    if part.isEmpty then before
    else
      let stop := c.forward part.length
      let (more, passed, next) := gap stop
      let here : Reading := ⟨before.text ++ blanks ++ part, stop.place, passed, next⟩
      if more.isEmpty || next.peek = '#' || (!flow && (next.column : Int) < indent) then here
      else continuation flow indent fuel more here

end Plain

/-- A plain scalar, with the word on whether a line break was passed after it. -/
def plainToken (flow : Bool) (indent : Int) (c : Cursor) : Token × Bool × Cursor :=
  let r := Plain.continuation flow indent (c.rest.length + 1) [] ⟨[], c.place, false, c⟩
  (⟨.scalar r.text true, c.place, r.stop⟩, r.passedBreak, r.next)

end DocDesk.Yaml
