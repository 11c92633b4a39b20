import DocDesk.Json.Loose
import DocDesk.Json.Inspect
import DocDesk.Text.Split

/-!
# XML text

The members of an object become elements; an array repeats the element of its name for every item.
Null and the empty object become empty elements, scalars character data.  A document that is an array
is the sequence of its items.

Main statements: `nameOf_head` (a name starts like a name) and `escape_of_plain`.
-/

namespace DocDesk.Xml

/-- How a document is written. -/
structure Options where
  pretty : Bool := true
  /-- The unit of indentation. -/
  indent : Json := .str "  "
  header : Bool := true

/-- A unit of indentation that cannot be repeated. -/
structure IndentFault where
  kind : String
deriving DecidableEq, Repr

/-- The wording of the refusal of a unit. -/
def IndentFault.message (e : IndentFault) : String :=
  "unsupported operand type(s) for *: '" ++ e.kind ++ "' and 'int'"

/-- The line that declares the format. -/
def headerLine : List Char := "<?xml version=\"1.0\" encoding=\"UTF-8\"?>".toList

/-! ## Names and character data -/

/-- An ASCII letter. -/
def isLetter (c : Char) : Bool := ('a' ≤ c && c ≤ 'z') || ('A' ≤ c && c ≤ 'Z')

/-- A character that a name keeps. -/
def isNameChar (c : Char) : Bool :=
  isLetter c || ('0' ≤ c && c ≤ '9') || c = '_' || c = '.' || c = '-' || c = ':'

/-- A character that starts a name. -/
def isNameStart (c : Char) : Bool := isLetter c || c = '_'

/-- The element name of a member name: other characters become underscores, and an underscore goes in
front where the name would not start like one. -/
def nameOf (name : List Char) : List Char :=
  let cs := name.map fun c => if isNameChar c then c else '_'
  match cs with
  | [] => ['_']
  | c :: r => if isNameStart c then c :: r else '_' :: c :: r

/-- One character of character data. -/
def escapedChar (c : Char) : List Char :=
  if c = '&' then "&amp;".toList
  else if c = '<' then "&lt;".toList
  else if c = '>' then "&gt;".toList
  else [c]

/-- Character data. -/
def escape (cs : List Char) : List Char := cs.flatMap escapedChar

/-! ## Elements -/

/-- The indentation of a depth: a text repeated, a number multiplied, the items of an array
repeated. -/
def padding (unit : Json) (depth : Nat) : List Char :=
  match unit with
  | .str s => Text.repeated depth s.toList
  | .int i => intText (i * depth)
  | .bool b => intText (if b then depth else 0)
  | .float x => (x.mul (.ofInt depth)).textWith "nan" "inf"
  | .arr items => (Json.arr (List.replicate depth items).flatten).inspectChars
  | _ => []

/-- The parts of the layout: what stands before an element of a depth, and after each. -/
structure Layout where
  before : Nat → List Char
  newline : List Char

/-- The layout that options ask for. -/
def Options.layout (options : Options) : Layout where
  before depth := if options.pretty then padding options.indent depth else []
  newline := if options.pretty then ['\n'] else []

/-- A start tag. -/
def startTag (name : List Char) : List Char := '<' :: name ++ ['>']

/-- An end tag. -/
def endTag (name : List Char) : List Char := '<' :: '/' :: name ++ ['>']

/-- The tag of an empty element. -/
def emptyTag (name : List Char) : List Char := '<' :: name ++ ['/', '>']

mutual

/-- The elements of a value under an element name at a depth. -/
def elements (layout : Layout) (depth : Nat) (name : List Char) : Json → List Char
  | .arr items => itemElements layout depth name items
  | .null | .obj [] => layout.before depth ++ emptyTag name ++ layout.newline
  | .obj (m :: ms) =>
    layout.before depth ++ startTag name ++ layout.newline
      ++ memberElements layout (depth + 1) (m :: ms)
      ++ layout.before depth ++ endTag name ++ layout.newline
  | v =>
    layout.before depth ++ startTag name ++ escape v.looseChars ++ endTag name ++ layout.newline

/-- The elements of the items of an array. -/
def itemElements (layout : Layout) (depth : Nat) (name : List Char) : List Json → List Char
  | [] => []
  | v :: vs => elements layout depth name v ++ itemElements layout depth name vs

/-- The elements of the members of an object. -/
def memberElements (layout : Layout) (depth : Nat) : List (String × Json) → List Char
  | [] => []
  | (k, v) :: ms => elements layout depth (nameOf k.toList) v ++ memberElements layout depth ms

end

mutual

/-- A document: the members of an object, the items of an array, or character data. -/
def documentBody (layout : Layout) : Json → List Char
  | .obj ms => memberElements layout 0 ms
  | .arr items => itemBodies layout items
  | .null => []
  | v => escape v.looseChars ++ layout.newline

/-- The items of an array one after the other. -/
def itemBodies (layout : Layout) : List Json → List Char
  | [] => []
  | v :: vs => documentBody layout v ++ itemBodies layout vs

end

mutual

/-- A value that brings an element. -/
def bringsElement : Json → Bool
  | .arr items => bringsElementItems items
  | _ => true

/-- Items of which one brings an element. -/
def bringsElementItems : List Json → Bool
  | [] => false
  | v :: vs => bringsElement v || bringsElementItems vs

end

mutual

/-- A document that holds an element. -/
def hasElement : Json → Bool
  | .obj ms => ms.any fun m => bringsElement m.2
  | .arr items => hasElementItems items
  | _ => false

/-- Items of which one holds an element. -/
def hasElementItems : List Json → Bool
  | [] => false
  | v :: vs => hasElement v || hasElementItems vs

end

/-- The text without the line breaks at its end. -/
def withoutLastBreaks (cs : List Char) : List Char :=
  (cs.reverse.dropWhile (· = '\n')).reverse

/-- The text of a document, with a unit of indentation that can be repeated. -/
def text (options : Options) (v : Json) : String :=
  let layout := options.layout
  let body := withoutLastBreaks (documentBody layout v)
  String.ofList
    (if !options.header then body
    else if body.isEmpty then headerLine
    else headerLine ++ layout.newline ++ body)

/-- The kind of a unit that cannot be repeated. -/
def unrepeatable? (unit : Json) : Option String :=
  match unit with
  | .null | .obj _ => some unit.kindName
  | _ => none

/-- A document as XML text. -/
def write (options : Options) (v : Json) : Except IndentFault String :=
  match unrepeatable? options.indent with
  | some kind => if options.pretty && hasElement v then .error ⟨kind⟩ else .ok (text options v)
  | none => .ok (text options v)

/-! ## Laws of names and character data -/

/-- A name starts with a character that may start one. -/
theorem nameOf_head (name : List Char) : ∃ c r, nameOf name = c :: r ∧ isNameStart c = true := by
  unfold nameOf
  simp only
  split
  · exact ⟨'_', [], rfl, by decide⟩
  · next c r _ =>
    split
    · next h => exact ⟨c, r, rfl, h⟩
    · exact ⟨'_', c :: r, rfl, by decide⟩

/-- Two texts are escaped one by one. -/
theorem escape_append (a b : List Char) : escape (a ++ b) = escape a ++ escape b := by
  simp [escape]

/-- A text without markup is left as it is. -/
theorem escape_of_plain {cs : List Char} (h : ∀ c ∈ cs, c ≠ '&' ∧ c ≠ '<' ∧ c ≠ '>') :
    escape cs = cs := by
  induction cs with
  | nil => rfl
  | cons c cs ih =>
    obtain ⟨h1, h2, h3⟩ := h c (by simp)
    have : escapedChar c = [c] := by simp [escapedChar, h1, h2, h3]
    rw [show c :: cs = [c] ++ cs from rfl, escape_append, ih fun d hd => h d (by simp [hd])]
    simp [escape, this]

end DocDesk.Xml
