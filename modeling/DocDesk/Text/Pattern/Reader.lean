import DocDesk.Number.Whole
import DocDesk.Text.Pattern.Basic
import DocDesk.Text.Pattern.Fault

/-!
# Reading patterns

The text of a pattern is cut into characters and escaped characters, and read from left to right: choices
are sequences between bars, sequences are items, and a sign of repetition applies to the item before it.
A fault keeps how many characters were left at its place.  A backslash that ends the text is a fault as
soon as the item before it is taken, so it comes before every fault found later.

Main definition: `parse`.  Main statement: `tokens_plain`.
-/

namespace DocDesk.Text.Pattern

namespace Reader

/-! ## Tokens -/

/-- A character of a pattern, or a character behind a backslash. -/
inductive Token where
  | char (c : Char)
  | escape (c : Char)
deriving DecidableEq, Repr

/-- The text of a token. -/
def Token.text : Token → List Char
  | .char c => [c]
  | .escape c => ['\\', c]

/-- The tokens of a text. -/
def tokens : List Char → List Token
  | '\\' :: c :: cs => .escape c :: tokens cs
  | ['\\'] => []
  | c :: cs => .char c :: tokens cs
  | [] => []

/-- A text whose last backslash escapes nothing. -/
def dangles : List Char → Bool
  | '\\' :: _ :: cs => dangles cs
  | ['\\'] => true
  | _ :: cs => dangles cs
  | [] => false

/-- The number of characters of tokens. -/
def size (ts : List Token) : Nat := ts.foldl (fun n t => n + t.text.length) 0

/-- A cause with the number of characters from its place to the end, if it has a place, and whether
tokens were left. -/
structure Stop where
  reason : Reason
  left : Option Nat
  unread : Bool

/-- A cause some characters before the tokens that are left. -/
def fail (reason : Reason) (ts : List Token) (offset : Nat := 0) : Except Stop α :=
  .error ⟨reason, some (size ts + offset), !ts.isEmpty⟩

/-- A cause at a place noted earlier. -/
def failAt (reason : Reason) (ts : List Token) (left : Nat) : Except Stop α :=
  .error ⟨reason, some left, !ts.isEmpty⟩

/-! ## Characters -/

/-- The value of a digit in base sixteen. -/
def hexDigit? (c : Char) : Option Nat :=
  if c.isDigit then some (c.toNat - 48)
  else if 'a' ≤ c ∧ c ≤ 'f' then some (c.toNat - 87)
  else if 'A' ≤ c ∧ c ≤ 'F' then some (c.toNat - 55)
  else none

/-- A digit in base eight. -/
def isOctal (c : Char) : Bool := '0' ≤ c && c ≤ '7'

/-- The number that digits in a base denote. -/
def radixValue (base : Nat) (cs : List Char) : Nat :=
  cs.foldl (fun n c => n * base + (hexDigit? c).getD 0) 0

/-- The leading characters of a kind, at most a given number. -/
def takeUpTo (p : Char → Bool) : Nat → List Token → List Char × List Token
  | n + 1, .char c :: ts =>
    if p c then ((c :: (takeUpTo p n ts).1), (takeUpTo p n ts).2) else ([], .char c :: ts)
  | _, ts => ([], ts)

/-- The leading characters of a kind. -/
def takeAll (p : Char → Bool) (ts : List Token) : List Char × List Token := takeUpTo p ts.length ts

/-- A text that can name a group. -/
def isIdentifier : List Char → Bool
  | [] => false
  | c :: cs => isWord c && !isDigit c && cs.all isWord

/-- Reads a name up to a closing character. -/
def readName (closing : Char) (what : String) : List Char → List Token → Except Stop (List Char × List Token)
  | [], [] => fail (.missingName what) []
  | name, [] => fail (.unterminatedName closing) [] name.length
  | name, t :: ts =>
    if t = .char closing then
      if name = [] then fail (.missingName what) ts 1 else .ok (name, ts)
    else readName closing what (name ++ t.text) ts

/-- The letters of options. -/
def isOption (c : Char) : Bool := c ∈ ['i', 'L', 'm', 's', 'x', 'a', 't', 'u']

/-! ## Escapes -/

/-- Reads the digits of a code point escape. -/
def readCode (letter : Char) (width : Nat) (ts : List Token) : Except Stop (Nat × List Token) :=
  let (ds, rest) := takeUpTo (fun c => (hexDigit? c).isSome) width ts
  let text := '\\' :: letter :: ds
  if ds.length ≠ width then fail (.incompleteEscape text) rest text.length
  else if 0x110000 ≤ radixValue 16 ds then fail (.badEscape text) rest text.length
  else .ok (radixValue 16 ds, rest)

/-- Reads a name of a character; no names are known. -/
def readCharacterName (ts : List Token) : Except Stop (Nat × List Token) :=
  match ts with
  | .char '{' :: ts => do
    let (name, ts) ← readName '}' "character name" [] ts
    fail (.undefinedCharacter name) ts (name.length + 4)
  | ts => fail .missingBrace ts

/-- The code point that a letter behind a backslash stands for. -/
def control? (c : Char) : Option Nat :=
  match c with
  | 'a' => some 7
  | 'f' => some 12
  | 'n' => some 10
  | 'r' => some 13
  | 't' => some 9
  | 'v' => some 11
  | '\\' => some 92
  | _ => none

/-- The class that a letter behind a backslash stands for. -/
def kind? (c : Char) : Option Item :=
  match c with
  | 'd' => some (.kind .digit false)
  | 'D' => some (.kind .digit true)
  | 's' => some (.kind .blank false)
  | 'S' => some (.kind .blank true)
  | 'w' => some (.kind .word false)
  | 'W' => some (.kind .word true)
  | _ => none

/-- Reads an escape that is not a digit and denotes one code point. -/
def readPoint (c : Char) (ts : List Token) : Except Stop (Nat × List Token) :=
  match c with
  | 'x' => readCode 'x' 2 ts
  | 'u' => readCode 'u' 4 ts
  | 'U' => readCode 'U' 8 ts
  | 'N' => readCharacterName ts
  | c => if c.isAlpha then fail (.badEscape ['\\', c]) ts 2 else .ok (c.toNat, ts)

/-- Reads an escape inside a set. -/
def readSetEscape (c : Char) (ts : List Token) : Except Stop (Item × List Token) :=
  let point (n : Nat) : Item := .range n n
  if c = 'b' then .ok (point 8, ts)
  else match control? c, kind? c with
  | some n, _ => .ok (point n, ts)
  | none, some k => .ok (k, ts)
  | none, none =>
    if isOctal c then
      let (ds, rest) := takeUpTo isOctal 2 ts
      let text := '\\' :: c :: ds
      let n := radixValue 8 (c :: ds)
      if 0o377 < n then fail (.octalTooLarge text) rest text.length else .ok (point n, rest)
    else if c.isDigit then fail (.badEscape ['\\', c]) ts 2
    else do
      let (n, ts) ← readPoint c ts
      .ok (point n, ts)

/-! ## Sets -/

/-- Reads one end of a range or a single item of a set. -/
def readItem (t : Token) (ts : List Token) : Except Stop (Item × List Token) :=
  match t with
  | .char c => .ok (.range c.toNat c.toNat, ts)
  | .escape c => readSetEscape c ts

/-- Reads the items of a set up to the closing bracket; one that comes first is an item. -/
def readItems (start : Nat) : Nat → List Item → List Token → Except Stop (List Item × List Token)
  | 0, _, ts => failAt .unterminatedSet ts start
  | _ + 1, _, [] => failAt .unterminatedSet [] start
  | fuel + 1, items, t :: ts => do
    if t = .char ']' ∧ items ≠ [] then return (items, ts)
    let (a, ts) ← readItem t ts
    match ts with
    | .char '-' :: [] => failAt .unterminatedSet [] start
    | .char '-' :: .char ']' :: ts => return (items ++ [a, .range 45 45], ts)
    | .char '-' :: u :: ts =>
      let (b, ts) ← readItem u ts
      let bad : Except Stop (List Item × List Token) :=
        fail (.badRange t.text u.text) ts (t.text.length + 1 + u.text.length)
      match a, b with
      | .range lo _, .range hi _ =>
        if hi < lo then bad else readItems start fuel (items ++ [.range lo hi]) ts
      | _, _ => bad
    | ts => readItems start fuel (items ++ [a]) ts

/-! ## Options -/

/-- The options in force. -/
structure Options where
  ignoreCase : Bool := false
  multiline : Bool := false
  dotAll : Bool := false
  verbose : Bool := false
  ascii : Bool := false

/-- Turns options on. -/
def Options.on (o : Options) (cs : List Char) : Options :=
  ⟨o.ignoreCase || 'i' ∈ cs, o.multiline || 'm' ∈ cs, o.dotAll || 's' ∈ cs,
    o.verbose || 'x' ∈ cs, (o.ascii && 'u' ∉ cs) || 'a' ∈ cs⟩

/-- Turns options off. -/
def Options.off (o : Options) (cs : List Char) : Options :=
  ⟨o.ignoreCase && 'i' ∉ cs, o.multiline && 'm' ∉ cs, o.dotAll && 's' ∉ cs,
    o.verbose && 'x' ∉ cs, o.ascii⟩

/-- What a list of options asks for: on and off for a group, or on for the whole pattern. -/
inductive OptionChange where
  | whole (on : List Char)
  | group (on off : List Char)

/-- The cause for a character that is no option: letters are unknown options. -/
def notOption (t : Token) (otherwise : Reason) : Reason :=
  match t with
  | .char c => if isWord c && !isDigit c && c ≠ '_' then .unknownOption else otherwise
  | .escape _ => otherwise

/-- Reads options that are turned on, from one that is already taken; ends with the sign after them. -/
def readOn (c : Char) (on : List Char) (ts : List Token) :
    Except Stop ((List Char × Char) × List Token) :=
    if c = 'L' then fail .localeOption ts
    else if c = 'a' ∧ 'u' ∈ on ∨ c = 'u' ∧ 'a' ∈ on then fail .incompatibleOptions ts
    else match ts with
    | [] => fail .optionsUnfinished []
    | .char d :: ts =>
      if d = ')' ∨ d = '-' ∨ d = ':' then .ok ((c :: on, d), ts)
      else if isOption d then readOn d (c :: on) ts
      else fail (notOption (.char d) .optionsUnfinished) ts 1
    | t :: ts => fail (notOption t .optionsUnfinished) ts t.text.length

/-- Reads options that are turned off, up to the colon. -/
def readOff (c : Char) (off : List Char) (ts : List Token) : Except Stop (List Char × List Token) :=
    if c = 'a' ∨ c = 'u' ∨ c = 'L' then fail .typeOptionOff ts
    else match ts with
    | [] => fail .missingColon []
    | .char d :: ts =>
      if d = ':' then .ok (c :: off, ts)
      else if isOption d then readOff d (c :: off) ts
      else fail (notOption (.char d) .missingColon) ts 1
    | t :: ts => fail (notOption t .missingColon) ts t.text.length

/-- Reads the options that are turned off, if a dash announced any, and checks the whole list. -/
def finishOptions (on : List Char) (sign : Char) (ts : List Token) : Except Stop (OptionChange × List Token) :=
  if sign = ')' then .ok (.whole on, ts)
  else if 't' ∈ on then fail .globalOptionOn ts 1
  else if sign = '-' then
    match ts with
    | [] => fail .missingOption []
    | t :: ts => do
      let .char c := t | fail (notOption t .missingOption) ts t.text.length
      if !isOption c then fail (notOption t .missingOption) ts 1
      let (off, ts) ← readOff c [] ts
      if 't' ∈ off then fail .globalOptionOff ts 1
      if on.any (· ∈ off) then fail .optionOnAndOff ts 1
      return (.group on off, ts)
  else .ok (.group on [], ts)

/-- Reads options from their first character on. -/
def readOptions (c : Char) (ts : List Token) : Except Stop (OptionChange × List Token) :=
  if c = '-' then finishOptions [] '-' ts
  else do
    let ((on, sign), ts) ← readOn c [] ts
    finishOptions on sign ts

/-! ## Groups -/

/-- What is known while a pattern is read: the options in force, the number of the next group, the
names of groups, the widths of the closed ones, the first group that a look behind must not refer to,
and references to groups that are checked in the end. -/
structure Known where
  options : Options := {}
  next : Nat := 1
  names : List (List Char × Nat) := []
  closed : List (Nat × Width) := []
  lookBehind : Option Nat := none
  pending : List (Nat × Nat) := []

/-- The width of a closed group. -/
def Known.widthOf (k : Known) (n : Nat) : Width := (k.closed.lookup n).getD (0, some 0)

/-- Whether a group is closed. -/
def Known.isClosed (k : Known) (n : Nat) : Bool := (k.closed.lookup n).isSome

/-- Refuses a reference, inside a look behind, to a group that is not closed or opened there. -/
def Known.checkLookBehind (k : Known) (n : Nat) (ts : List Token) : Except Stop Unit :=
  match k.lookBehind with
  | none => .ok ()
  | some first =>
    if !k.isClosed n then fail .openGroup ts
    else if first ≤ n then fail .groupOfSameLookBehind ts
    else .ok ()

/-- The reference back to a group. -/
def Known.again (k : Known) (n : Nat) : Pattern := .again n k.options.ignoreCase k.options.ascii

/-- Opens a group; a name must be new. -/
def Known.opening (k : Known) (name : Option (List Char)) (ts : List Token) :
    Except Stop (Nat × Known) :=
  match name with
  | none => .ok (k.next, { k with next := k.next + 1 })
  | some name =>
    match k.names.lookup name with
    | some earlier => fail (.groupRedefined name k.next earlier) ts (name.length + 1)
    | none => .ok (k.next, { k with next := k.next + 1, names := (name, k.next) :: k.names })

/-- The pattern of one character. -/
def Known.literal (k : Known) (n : Nat) : Pattern :=
  .one (.literal n k.options.ignoreCase k.options.ascii)

/-- The pattern of a set. -/
def Known.set (k : Known) (negated : Bool) (items : List Item) : Pattern :=
  .one (.set negated items k.options.ignoreCase k.options.ascii)

/-- What a sign of repetition finds before it. -/
inductive Role where
  | anchor
  | repeated
  | other
deriving DecidableEq, Repr

/-- An item of a sequence. -/
abbrev Part := Role × Pattern

/-- Reads a digit escape outside a set: an octal code point or a reference back to a group. -/
def readDigitEscape (k : Known) (c : Char) (ts : List Token) : Except Stop (Part × List Token) :=
  if c = '0' then
    let (ds, rest) := takeUpTo isOctal 2 ts
    .ok ((.other, k.literal (radixValue 8 ds)), rest)
  else
    let reference (ds : List Char) (ts : List Token) : Except Stop (Part × List Token) := do
      let n := radixValue 10 ds
      if k.next ≤ n then fail (.invalidGroup n) ts ds.length
      if !k.isClosed n then fail .openGroup ts (ds.length + 1)
      k.checkLookBehind n ts
      return ((.other, k.again n), ts)
    match ts with
    | .char d :: .char e :: ts =>
      if d.isDigit then
        if isOctal c && isOctal d && isOctal e then
          let n := radixValue 8 [c, d, e]
          if 0o377 < n then fail (.octalTooLarge ['\\', c, d, e]) ts 4
          else .ok ((.other, k.literal n), ts)
        else reference [c, d] (.char e :: ts)
      else reference [c] (.char d :: .char e :: ts)
    | .char d :: ts => if d.isDigit then reference [c, d] ts else reference [c] (.char d :: ts)
    | ts => reference [c] ts

/-- Reads an escape outside a set. -/
def readEscape (k : Known) (c : Char) (ts : List Token) : Except Stop (Part × List Token) :=
  let ascii := k.options.ascii
  match c with
  | 'A' => .ok ((.anchor, .anchor .textStart), ts)
  | 'Z' => .ok ((.anchor, .anchor .textEnd), ts)
  | 'b' => .ok ((.anchor, .anchor (.boundary false ascii)), ts)
  | 'B' => .ok ((.anchor, .anchor (.boundary true ascii)), ts)
  | c =>
    match kind? c, control? c with
    | some i, _ => .ok ((.other, k.set false [i]), ts)
    | none, some n => .ok ((.other, k.literal n), ts)
    | none, none =>
      if c.isDigit then readDigitEscape k c ts
      else do
        let (n, ts) ← readPoint c ts
        .ok ((.other, k.literal n), ts)

/-! ## Repetitions -/

/-- The greatest number of rounds that a pattern can name, plus one. -/
def lengthLimit : Nat := 4294967295

/-- Reads the bounds of a repetition behind an opening brace; none if it is no repetition. -/
def readBounds (ts : List Token) :
    Except Stop (Option ((Nat × Option Nat) × List Token)) :=
  match ts with
  | .char '}' :: _ => .ok none
  | _ =>
    let (lo, rest) := takeAll Char.isDigit ts
    let (hi, rest) := match rest with
      | .char ',' :: rest => takeAll Char.isDigit rest
      | rest => (lo, rest)
    match rest with
    | .char '}' :: rest =>
      let least := radixValue 10 lo
      let most := if hi = [] then none else some (radixValue 10 hi)
      if lengthLimit ≤ least || most.any (lengthLimit ≤ ·) then
        .error ⟨.lengthTooLarge, none, !rest.isEmpty⟩
      else if most.any (· < least) then failAt .lengthsReversed rest (size ts)
      else .ok (some ((least, most), rest))
    | _ => .ok none

/-- Applies a repetition to the last item of a sequence. -/
def repeatLast (start : Nat) (bounds : Nat × Option Nat) (parts : List Part) (ts : List Token) :
    Except Stop (List Part × List Token) :=
  match parts with
  | [] => failAt .nothingToRepeat ts start
  | (.anchor, _) :: _ => failAt .nothingToRepeat ts start
  | (.repeated, _) :: _ => failAt .multipleRepeat ts start
  | (.other, p) :: parts =>
    let with_ (g : Greed) (ts : List Token) : Except Stop (List Part × List Token) :=
      .ok ((.repeated, .rep g bounds.1 bounds.2 p) :: parts, ts)
    match ts with
    | .char '?' :: ts => with_ .short ts
    | .char '+' :: ts => with_ .final ts
    | ts => with_ .long ts

/-- The bounds of the signs that need no braces. -/
def bounds? (c : Char) : Option (Nat × Option Nat) :=
  match c with
  | '?' => some (0, some 1)
  | '*' => some (0, none)
  | '+' => some (1, none)
  | _ => none

/-- The tokens after a line comment. -/
def afterLine : List Token → List Token
  | [] => []
  | t :: ts => if t = .char '\n' then ts else afterLine ts

/-- The tokens after the end of a comment in parentheses. -/
def afterComment? : List Token → Option (List Token)
  | [] => none
  | t :: ts => if t = .char ')' then some ts else afterComment? ts

/-- White space that the verbose option skips. -/
def isSkipped (c : Char) : Bool :=
  c = ' ' || c = '\t' || c = '\n' || c = '\r' || c = '\x0b' || c = '\x0c'

/-- The group that the condition of a conditional part names. -/
def readCondition (k : Known) (name : List Char) (ts : List Token) : Except Stop (Nat × Known) :=
  if isIdentifier name then
    match k.names.lookup name with
    | some n => .ok (n, k)
    | none => fail (.unknownGroup name) ts (name.length + 1)
  else
    match Whole.read (String.ofList name) with
    | .ok (.ofNat n) =>
      if n = 0 then fail .badGroupNumber ts (name.length + 1)
      else if 1073741823 ≤ n then fail (.invalidGroup n) ts (name.length + 1)
      else if (k.pending.lookup n).isSome then .ok (n, k)
      else .ok (n, { k with pending := k.pending ++ [(n, size ts + name.length + 1)] })
    | _ => fail (.badGroupName name) ts (name.length + 1)

/-! ## Sequences and choices -/

mutual

/-- Reads sequences with bars between them. -/
def readChoice : Nat → Bool → Known → List Token → Except Stop (Pattern × Known × List Token)
  | 0, _, k, ts => .ok (.empty, k, ts)
  | fuel + 1, first, k, ts => do
    let (p, k, ts) ← readSequence fuel first k [] ts
    match ts with
    | .char '|' :: ts =>
      let (q, k, ts) ← readChoice fuel false k ts
      return (.alt p q, k, ts)
    | ts => return (p, k, ts)

/-- Reads items up to a bar, a closing parenthesis or the end; the items read so far come last first. -/
def readSequence : Nat → Bool → Known → List Part → List Token → Except Stop (Pattern × Known × List Token)
  | 0, _, k, _, ts => .ok (.empty, k, ts)
  | fuel + 1, first, k, parts, ts =>
    let done : Except Stop (Pattern × Known × List Token) := .ok (ofList (parts.reverse.map Prod.snd), k, ts)
    match ts with
    | [] => done
    | .escape c :: ts => do
      let (p, ts) ← readEscape k c ts
      readSequence fuel first k (p :: parts) ts
    | .char c :: rest =>
      if c = '|' ∨ c = ')' then done
      else if k.options.verbose && isSkipped c then readSequence fuel first k parts rest
      else if k.options.verbose && c = '#' then readSequence fuel first k parts (afterLine rest)
      else match c with
      | '[' => do
        let start := size ts
        let (negated, rest) := match rest with
          | .char '^' :: rest => (true, rest)
          | rest => (false, rest)
        let (items, rest) ← readItems start (rest.length + 1) [] rest
        readSequence fuel first k ((.other, k.set negated items) :: parts) rest
      | '.' => readSequence fuel first k ((.other, .one (.any k.options.dotAll)) :: parts) rest
      | '^' =>
        let a : Anchor := if k.options.multiline then .lineStart else .textStart
        readSequence fuel first k ((.anchor, .anchor a) :: parts) rest
      | '$' =>
        let a : Anchor := if k.options.multiline then .lineEnd else .lastLineEnd
        readSequence fuel first k ((.anchor, .anchor a) :: parts) rest
      | '(' => do
        let (part, k, rest) ← readGroup fuel (first && parts.isEmpty) k rest
        readSequence fuel first k (part.toList ++ parts) rest
      | '{' => do
        match ← readBounds rest with
        | some (bounds, rest) =>
          let (parts, rest) ← repeatLast (size ts) bounds parts rest
          readSequence fuel first k parts rest
        | none => readSequence fuel first k ((.other, k.literal c.toNat) :: parts) rest
      | c =>
        match bounds? c with
        | some bounds => do
          let (parts, rest) ← repeatLast (size ts) bounds parts rest
          readSequence fuel first k parts rest
        | none => readSequence fuel first k ((.other, k.literal c.toNat) :: parts) rest

/-- Reads what is behind an opening parenthesis; comments and options give no item. -/
def readGroup : Nat → Bool → Known → List Token → Except Stop (Option Part × Known × List Token)
  | 0, _, k, ts => .ok (none, k, ts)
  | fuel + 1, first, k, ts =>
    let start := size ts + 1
    let other (p : Pattern) : Option Part := some (.other, p)
    let numbered (name : Option (List Char)) (ts : List Token) : Except Stop (Option Part × Known × List Token) := do
      let (n, inner) ← k.opening name ts
      let (p, inner, ts) ← readInside fuel start inner ts
      let closed := (n, p.width inner.widthOf) :: inner.closed
      return (other (.group n p), { inner with closed, options := k.options }, ts)
    match ts with
    | .char '?' :: ts =>
      match ts with
      | [] => fail .unexpectedEnd []
      | .escape c :: ts => fail (.unknownExtension ['?', '\\', c]) ts 3
      | .char c :: ts =>
        match c with
        | 'P' =>
          match ts with
          | .char '<' :: ts => do
            let (name, ts) ← readName '>' "group name" [] ts
            if !isIdentifier name then fail (.badGroupName name) ts (name.length + 1)
            numbered (some name) ts
          | .char '=' :: ts => do
            let (name, ts) ← readName ')' "group name" [] ts
            if !isIdentifier name then fail (.badGroupName name) ts (name.length + 1)
            match k.names.lookup name with
            | none => fail (.unknownGroup name) ts (name.length + 1)
            | some n =>
              if !k.isClosed n then fail .openGroup ts (name.length + 1)
              k.checkLookBehind n ts
              return (other (k.again n), k, ts)
          | [] => fail .unexpectedEnd []
          | t :: ts => fail (.unknownExtension ('?' :: 'P' :: t.text)) ts (t.text.length + 2)
        | ':' => do
          let (p, inner, ts) ← readInside fuel start k ts
          return (other p, { inner with options := k.options }, ts)
        | '#' =>
          match afterComment? ts with
          | some ts => .ok (none, k, ts)
          | none => failAt .unterminatedComment [] start
        | '=' => do
          let (p, k, ts) ← readInside fuel start k ts
          return (other (.ahead false p), k, ts)
        | '!' => do
          let (p, k, ts) ← readInside fuel start k ts
          return (other (.ahead true p), k, ts)
        | '<' => do
          let (negated, ts) ← match ts with
            | .char '=' :: ts => Except.ok (false, ts)
            | .char '!' :: ts => .ok (true, ts)
            | [] => fail .unexpectedEnd []
            | t :: ts => fail (.unknownExtension ('?' :: '<' :: t.text)) ts (t.text.length + 2)
          -- no reference in here goes back to a group opened in the outermost look-behind
          let inner := { k with lookBehind := k.lookBehind.or (some k.next) }
          let (p, inner, ts) ← readInside fuel start inner ts
          let width := (p.width inner.widthOf).fixed?
          return (other (.behind negated width p), { inner with lookBehind := k.lookBehind }, ts)
        | '(' => do
          let (name, ts) ← readName ')' "group name" [] ts
          let (n, k) ← readCondition k name ts
          k.checkLookBehind n ts
          let (yes, k, ts) ← readSequence fuel false k [] ts
          let (no, k, ts) ← match ts with
            | .char '|' :: ts => do
              let (no, k, ts) ← readSequence fuel false k [] ts
              if ts.head? = some (.char '|') then fail .tooManyBranches ts
              Except.ok (no, k, ts)
            | ts => .ok (.empty, k, ts)
          match ts with
          | .char ')' :: ts => return (other (.given n yes no), k, ts)
          | ts => failAt .unterminatedGroup ts start
        | '>' => do
          let (p, inner, ts) ← readInside fuel start k ts
          return (other (.atomic p), { inner with options := k.options }, ts)
        | c => do
          if !isOption c && c ≠ '-' then fail (.unknownExtension ['?', c]) ts 2
          let (change, ts) ← readOptions c ts
          match change with
          | .whole on =>
            -- options of the whole pattern may stand at its start only
            if !first then failAt .lateOptions ts start
            return (none, { k with options := k.options.on on }, ts)
          | .group on off =>
            let inner := { k with options := (k.options.on on).off off }
            let (p, inner, ts) ← readInside fuel start inner ts
            return (other p, { inner with options := k.options }, ts)
    | ts => numbered none ts

/-- Reads the inside of a group and its closing parenthesis. -/
def readInside : Nat → Nat → Known → List Token → Except Stop (Pattern × Known × List Token)
  | 0, _, k, ts => .ok (.empty, k, ts)
  | fuel + 1, start, k, ts => do
    let (p, k, ts) ← readChoice fuel false k ts
    match ts with
    | .char ')' :: ts => return (p, k, ts)
    | ts => failAt .unterminatedGroup ts start

end

/-- Reads a whole pattern.  Every level of nesting takes a token and at most three calls. -/
def readAll (ts : List Token) : Except Stop Pattern := do
  let (p, k, rest) ← readChoice (4 * ts.length + 4) true {} ts
  if !rest.isEmpty then fail .unbalanced rest
  match k.pending.find? fun (n, _) => k.next ≤ n with
  | some (n, left) => failAt (.invalidGroup n) [] left
  | none =>
    if p.looksBackFixed then .ok p else .error ⟨.lookBehindWidth, none, false⟩

/-- A text without backslashes is cut into its characters. -/
theorem tokens_plain {cs : List Char} (h : '\\' ∉ cs) : tokens cs = cs.map .char := by
  induction cs with
  | nil => rfl
  | cons c cs ih =>
    simp only [List.mem_cons, not_or] at h
    have hc : c ≠ '\\' := fun e => h.1 e.symm
    rw [tokens, ih h.2]
    · rfl
    · exact fun c' cs' e => absurd e hc
    · exact fun e => absurd e hc

end Reader

/-- Reads a text as a pattern. -/
def parse (s : String) : Except Fault Pattern :=
  let cs := s.toList
  let dangling : Fault := ⟨cs, .danglingEscape, some (cs.length - 1)⟩
  if Reader.dangles cs then
    match Reader.readAll (Reader.tokens cs) with
    | .error ⟨reason, left, true⟩ =>
      .error ⟨cs, reason, left.map fun n => cs.length - 1 - n⟩
    | _ => .error dangling
  else (Reader.readAll (Reader.tokens cs)).mapError fun e =>
    ⟨cs, e.reason, e.left.map fun n => cs.length - n⟩

end DocDesk.Text.Pattern
