import DocDesk.Json.Inspect
import DocDesk.Query.Path
import DocDesk.Text.Split

/-!
# Reading query paths

A path text is `$` and the spellings of its steps; anything may follow a filter.  A fault keeps its
cause and how many characters were left.  After the steps are read, the shape of the path is checked:
one wildcard or filter at most, after fields alone, and with fields alone behind it.

Main statements: `readSegment_shorter` (every step consumes text) and `readSegments` terminates by it.
-/

namespace DocDesk.Query

/-- Why a text is no path. -/
inductive PathMalformation where
  | missingRoot
  | unexpected (c : Char)
  | emptyName
  | unsupportedBracket
  | filterStart
  | emptyProperty
  | missingOperator
  | unsupportedOperator (op : Json.Comparator)
  | filterEnd
  | unterminatedFilter
  | emptyLiteral
  | unterminatedString
  | severalFanOuts
  | fanOutAfterIndex
  | indexAfterFanOut
  | notText (kind : String)
deriving DecidableEq, Repr

/-- The wording of a malformation. -/
def PathMalformation.message : PathMalformation → String
  | .missingRoot => "path must start with '$'"
  | .unexpected c => "unexpected character " ++ Text.quoted (String.singleton c)
  | .emptyName => "empty field name"
  | .unsupportedBracket => "unsupported bracket expression"
  | .filterStart => "filter must start with '@.'"
  | .emptyProperty => "empty filter property"
  | .missingOperator => "expected one of ==, !=, <, >"
  | .unsupportedOperator op => "unsupported operator " ++ op.text ++ "="
  | .filterEnd => "expected ')]' after filter literal"
  | .unterminatedFilter => "unterminated filter"
  | .emptyLiteral => "empty filter literal"
  | .unterminatedString => "unterminated string literal"
  | .severalFanOuts => "only one wildcard or filter is supported"
  | .fanOutAfterIndex => "wildcard or filter must follow field segments"
  | .indexAfterFanOut => "only fields may follow a wildcard"
  | .notText kind => "path must be a string, got " ++ kind

namespace PathReader

/-- Why reading stopped; `left` counts the characters from the fault to the end of the text. -/
inductive Fault where
  | malformed (cause : PathMalformation) (left : Nat)
  | digits (fault : DigitFault)
deriving DecidableEq, Repr

/-- A value with the characters left after it, or a fault. -/
abbrev Result (α : Type) := Except Fault (α × List Char)

/-- A fault at the front of what is left. -/
def fail (cause : PathMalformation) (cs : List Char) : Result α :=
  .error (.malformed cause cs.length)

/-- A character that ends a field name. -/
def endsName (c : Char) : Bool := c = '.' || c = '[' || c = ']' || c = '*'

/-- A character that ends the property of a filter. -/
def endsProperty (c : Char) : Bool := c = '=' || c = '!' || c = '<' || c = '>'

/-! ## Parts of a filter -/

/-- Reads the comparator of a filter; an order with equality is refused. -/
def readComparator (cs : List Char) : Result Json.Comparator :=
  match cs with
  | '=' :: '=' :: r => .ok (.eq, r)
  | '!' :: '=' :: r => .ok (.ne, r)
  | '<' :: r => if r.head? = some '=' then fail (.unsupportedOperator .lt) r else .ok (.lt, r)
  | '>' :: r => if r.head? = some '=' then fail (.unsupportedOperator .gt) r else .ok (.gt, r)
  | _ => fail .missingOperator cs

/-- Reads up to the closing quote; a backslash stands before a character that is taken as it is. -/
def readQuoted (quote : Char) : List Char → Result (List Char)
  | [] => .error (.malformed .unterminatedString 0)
  | [c] => if c = quote then .ok ([], []) else .error (.malformed .unterminatedString 0)
  | c :: d :: r =>
    if c = '\\' then
      match readQuoted quote r with
      | .ok (cs, rest) => .ok (d :: cs, rest)
      | .error f => .error f
    else if c = quote then .ok ([], d :: r)
    else
      match readQuoted quote (d :: r) with
      | .ok (cs, rest) => .ok (c :: cs, rest)
      | .error f => .error f

/-- The text before the first `)]` and the text after it. -/
def splitAtClose : List Char → Option (List Char × List Char)
  | [] => none
  | c :: r =>
    match Text.after? [')', ']'] (c :: r) with
    | some rest => some ([], rest)
    | none => (splitAtClose r).map fun (before, rest) => (c :: before, rest)

/-- The literal that an unquoted text stands for. -/
def bareLiteral (cs : List Char) : Literal :=
  if cs = "true".toList then .bool true
  else if cs = "false".toList then .bool false
  else match Json.numberLiteral? (String.ofList cs) with
    | some (.int i) => .int i
    | some (.float x) => .float x
    | _ => .text (String.ofList cs)

/-- Reads the literal of a filter and the closing `)]`. -/
def readLiteral (cs : List Char) : Result Literal :=
  let cs := Text.stripFront cs
  match cs with
  | [] => fail .unterminatedFilter cs
  | quote :: r =>
    if quote = '\'' ∨ quote = '"' then
      match readQuoted quote r with
      | .error f => .error f
      | .ok (s, rest) =>
        let rest := Text.stripFront rest
        match Text.after? [')', ']'] rest with
        | some rest => .ok (.text (String.ofList s), rest)
        | none => fail .filterEnd rest
    else match splitAtClose cs with
      | none => fail .unterminatedFilter cs
      | some (raw, rest) =>
        let raw := Text.strip raw
        if raw.isEmpty then fail .emptyLiteral cs else .ok (bareLiteral raw, rest)

/-- Reads a filter after its opening `[?(`. -/
def readFilter (cs : List Char) : Result Segment :=
  let cs := Text.stripFront cs
  match Text.after? ['@', '.'] cs with
  | none => fail .filterStart cs
  | some body =>
    let property := (Text.splitAt '.' (body.takeWhile (!endsProperty ·))).map Text.strip
    let rest := body.dropWhile (!endsProperty ·)
    if property.any List.isEmpty then fail .emptyProperty rest
    else match readComparator rest with
      | .error f => .error f
      | .ok (op, rest) =>
        match readLiteral rest with
        | .error f => .error f
        | .ok (literal, rest) => .ok (.filter (property.map String.ofList) op literal, rest)

/-! ## Steps -/

/-- Reads a field name after its point. -/
def readField (cs : List Char) : Result Segment :=
  let name := cs.takeWhile (!endsName ·)
  let rest := cs.dropWhile (!endsName ·)
  if name.isEmpty then fail .emptyName rest
  else match rest.head? with
    | some ']' => fail (.unexpected ']') rest
    | some '*' => fail (.unexpected '*') rest
    | _ => .ok (.field (String.ofList name), rest)

/-- Reads an index after its opening bracket; `cs` starts at that bracket. -/
def readIndex (cs : List Char) : Result Segment :=
  let body := cs.drop 1
  let digits := body.takeWhile Char.isDigit
  match digits.isEmpty, body.dropWhile Char.isDigit with
  | false, ']' :: rest =>
    match readDigits digits with
    | .ok n => .ok (.index n, rest)
    | .error f => .error (.digits f)
  | _, _ => fail .unsupportedBracket cs

/-- Reads what starts with a bracket. -/
def readBracket (cs : List Char) : Result Segment :=
  match Text.after? ['[', '*', ']'] cs with
  | some rest => .ok (.wildcard, rest)
  | none =>
    match Text.after? ['[', '?', '('] cs with
    | some rest => readFilter rest
    | none => readIndex cs

/-- Reads one step. -/
def readSegment (cs : List Char) : Result Segment :=
  match cs with
  | [] => fail .missingRoot cs
  | c :: r =>
    if c = '.' then readField r
    else if c = '[' then readBracket cs
    else fail (.unexpected c) cs

/-! ## Every step consumes text -/

/-- What is left behind a run is no longer than the text was. -/
theorem length_dropWhile_le (p : Char → Bool) (cs : List Char) :
    (cs.dropWhile p).length ≤ cs.length :=
  (List.dropWhile_sublist p).length_le

/-- A text is as long as its front and what stands behind that. -/
theorem length_after? {p cs r : List Char} (h : Text.after? p cs = some r) :
    cs.length = p.length + r.length := by
  rw [Text.after?_eq_some_iff.1 h, List.length_append]

/-- A comparison takes characters. -/
theorem readComparator_shorter {cs r : List Char} {op : Json.Comparator}
    (h : readComparator cs = .ok (op, r)) : r.length < cs.length := by
  unfold readComparator fail at h
  split at h
  · cases h; simp only [List.length_cons]; omega
  · cases h; simp only [List.length_cons]; omega
  · split at h <;> cases h; simp
  · split at h <;> cases h; simp
  · cases h

/-- So does a text between quotes, with its closing quote. -/
theorem readQuoted_shorter {quote : Char} {cs s r : List Char}
    (h : readQuoted quote cs = .ok (s, r)) : r.length < cs.length := by
  fun_induction readQuoted quote cs generalizing s r with
  | case1 => cases h
  | case2 => cases h; simp
  | case3 => cases h
  | case4 d t t' rest hq ih => cases h; have := ih hq; simp; omega
  | case5 => cases h
  | case6 => cases h; simp
  | case7 c d t hc hq t' rest heq ih => cases h; have := ih heq; simp at this ⊢; omega
  | case8 => cases h

/-- So does the close of a filter. -/
theorem splitAtClose_shorter {cs a r : List Char} (h : splitAtClose cs = some (a, r)) :
    r.length < cs.length := by
  fun_induction splitAtClose cs generalizing a r with
  | case1 => cases h
  | case2 c t rest ha => cases h; have := length_after? ha; simp at this ⊢; omega
  | case3 c t ha ih =>
    simp only [Option.map_eq_some_iff, Prod.mk.injEq, Prod.exists] at h
    obtain ⟨b, r', hb, _, rfl⟩ := h
    have := ih hb
    simp; omega

/-- So does a literal with the close behind it. -/
theorem readLiteral_shorter {cs r : List Char} {l : Literal} (h : readLiteral cs = .ok (l, r)) :
    r.length < cs.length := by
  unfold readLiteral fail at h
  have h0 := length_dropWhile_le Text.isBlank cs
  simp only [Text.stripFront] at h
  split at h
  · cases h
  · next quote t hcs =>
    have h1 : (quote :: t).length ≤ cs.length := hcs ▸ h0
    split at h
    · split at h
      · cases h
      · next s rest hq =>
        have h2 := readQuoted_shorter hq
        have h3 := length_dropWhile_le Text.isBlank rest
        split at h
        · next rest' ha => cases h; have h4 := length_after? ha; simp at h1 h4; omega
        · cases h
    · split at h
      · cases h
      · next raw rest hs =>
        have h2 := splitAtClose_shorter hs
        split at h
        · cases h
        · cases h; omega

/-- So does a filter. -/
theorem readFilter_shorter {cs r : List Char} {s : Segment} (h : readFilter cs = .ok (s, r)) :
    r.length < cs.length := by
  unfold readFilter fail at h
  have h0 := length_dropWhile_le Text.isBlank cs
  simp only [Text.stripFront] at h
  split at h
  · cases h
  · next body ha =>
    have h1 := length_after? ha
    have h2 := length_dropWhile_le (!endsProperty ·) body
    simp at h1
    split at h
    · cases h
    · split at h
      · cases h
      · next op rest hc =>
        have h3 := readComparator_shorter hc
        split at h
        · cases h
        · next l rest' hl => cases h; have h4 := readLiteral_shorter hl; omega

/-- So does every step, so that reading a path ends. -/
theorem readSegment_shorter {cs r : List Char} {s : Segment} (h : readSegment cs = .ok (s, r)) :
    r.length < cs.length := by
  unfold readSegment at h
  split at h
  · cases h
  · next c t =>
    split at h
    · unfold readField fail at h
      have h1 := length_dropWhile_le (!endsName ·) t
      simp only at h
      split at h
      · cases h
      · split at h
        · cases h
        · cases h
        · cases h; simp; omega
    · split at h
      · unfold readBracket at h
        split at h
        · next ha => cases h; have := length_after? ha; simp at this ⊢; omega
        · split at h
          · next rest ha =>
            have h1 := length_after? ha
            have h2 := readFilter_shorter h
            simp at h1 ⊢; omega
          · unfold readIndex fail at h
            simp only [List.drop_succ_cons, List.drop_zero] at h
            have h1 := length_dropWhile_le Char.isDigit t
            split at h
            · next hd => rw [hd] at h1; split at h <;> cases h; simp at h1 ⊢; omega
            · cases h
      · cases h

/-! ## Whole paths -/

/-- Reads steps up to the end of the text, or up to a filter. -/
def readSegments (cs : List Char) : Result (List Segment) :=
  if cs.isEmpty then .ok ([], [])
  else
    match _h : readSegment cs with
    | .error f => .error f
    | .ok (s, r) =>
      if s.isFilter then .ok ([s], r)
      else
        match readSegments r with
        | .ok (ss, rest) => .ok (s :: ss, rest)
        | .error f => .error f
termination_by cs.length
decreasing_by exact readSegment_shorter _h

/-- The fault in the shape of a list of steps, if there is one. -/
def shapeFault? (ss : List Segment) : Option PathMalformation :=
  let before := ss.takeWhile Segment.isConcrete
  match ss.dropWhile Segment.isConcrete with
  | [] => none
  | _ :: behind =>
    if behind.any Segment.isFanOut then some .severalFanOuts
    else if !before.all Segment.isField then some .fanOutAfterIndex
    else if !behind.all Segment.isField then some .indexAfterFanOut
    else none

/-- Reads a path from a text without blanks at its ends. -/
def readPath (cs : List Char) : Except Fault Path :=
  match cs with
  | '$' :: r =>
    match readSegments r with
    | .error f => .error f
    | .ok (ss, rest) =>
      match shapeFault? ss with
      | some cause => .error (.malformed cause rest.length)
      | none => .ok ⟨ss⟩
  | _ => .error (.malformed .missingRoot cs.length)

end PathReader

/-! ## Paths from input -/

/-- A refused path, with the place of the fault in its text. -/
structure PathSyntaxError where
  cause : PathMalformation
  path : String
  position : Nat
deriving DecidableEq, Repr

/-- The wording of a refusal. -/
def PathSyntaxError.message (e : PathSyntaxError) : String :=
  e.cause.message ++ " at position " ++ toString e.position ++ " in " ++ Text.quoted e.path

/-- Why a value gives no path. -/
inductive PathFault where
  | malformed (error : PathSyntaxError)
  | digits (fault : DigitFault)
deriving DecidableEq, Repr

/-- Reads a text as a path; blanks around it do not matter. -/
def parsePath (s : String) : Except PathFault Path :=
  let cs := Text.strip s.toList
  match PathReader.readPath cs with
  | .ok p => .ok p
  | .error (.malformed cause left) => .error (.malformed ⟨cause, String.ofList cs, cs.length - left⟩)
  | .error (.digits f) => .error (.digits f)

/-- Reads a value as a path; only a text can be one. -/
def pathOfValue (v : Json) : Except PathFault Path :=
  match v with
  | .str s => parsePath s
  | v => .error (.malformed ⟨.notText v.kindName, v.plain, 0⟩)

end DocDesk.Query
