import DocDesk.Text.Split
import DocDesk.Text.Utf8

/-!
# References to resources

A reference is a scheme, an authority, a path, a query and a fragment, each of which may be missing.  A
relative reference is read against a base; only schemes whose paths are hierarchies have relative
references.

Main definition: `join`.
-/

namespace DocDesk

/-- The parts of a reference; a missing part is empty. -/
structure Uri where
  scheme : List Char
  authority : List Char
  path : List Char
  query : List Char
  fragment : List Char
deriving DecidableEq, Repr

namespace Uri

/-- Schemes with an authority and a hierarchy of paths; no scheme counts as one. -/
def hierarchical : List String :=
  ["", "ftp", "http", "gopher", "nntp", "imap", "wais", "file", "https", "shttp", "mms", "prospero",
    "rtsp", "rtspu", "sftp", "svn", "svn+ssh", "ws", "wss"]

/-- A scheme with a hierarchy of paths. -/
def isHierarchical (scheme : List Char) : Bool := String.ofList scheme ∈ hierarchical

/-- A character that a scheme may hold. -/
def isSchemeChar (c : Char) : Bool := c.isAlphanum || c = '+' || c = '-' || c = '.'

/-- A text at its first occurrence of a character; all of it stands before a character that is missing. -/
def cut (c : Char) (cs : List Char) : List Char × List Char :=
  (cs.takeWhile (· ≠ c), (cs.dropWhile (· ≠ c)).drop 1)

/-- The scheme in front of a reference, in lower case, and what follows it. -/
def cutScheme (cs : List Char) : List Char × List Char :=
  let (scheme, rest) := cut ':' cs
  if ':' ∈ cs ∧ scheme.head?.any Char.isAlpha ∧ scheme.all isSchemeChar then
    (scheme.map Char.toLower, rest)
  else ([], cs)

/-- The authority in front of a reference, and what follows it. -/
def cutAuthority (cs : List Char) : List Char × List Char :=
  match cs with
  | '/' :: '/' :: cs =>
    let ends (c : Char) : Bool := c = '/' || c = '?' || c = '#'
    (cs.takeWhile fun c => !ends c, cs.dropWhile fun c => !ends c)
  | cs => ([], cs)

/-- The parts of a reference.  Leading controls and spaces, and line breaks and tabs, do not count. -/
def ofChars (cs : List Char) : Uri :=
  let cs := (cs.dropWhile (·.toNat ≤ 32)).filter fun c => c ≠ '\t' ∧ c ≠ '\n' ∧ c ≠ '\r'
  let (scheme, cs) := cutScheme cs
  let (authority, cs) := cutAuthority cs
  let (cs, fragment) := cut '#' cs
  let (path, query) := cut '?' cs
  ⟨scheme, authority, path, query, fragment⟩

/-- The text of a reference. -/
def chars (u : Uri) : List Char :=
  let marked := u.scheme ≠ [] ∧ isHierarchical u.scheme
  let path :=
    if u.authority ≠ [] ∨ marked ∨ u.path.take 2 = ['/', '/'] then
      let rooted := if u.path ≠ [] ∧ u.path.head? ≠ some '/' then '/' :: u.path else u.path
      '/' :: '/' :: u.authority ++ rooted
    else u.path
  (if u.scheme = [] then [] else u.scheme ++ [':']) ++ path
    ++ (if u.query = [] then [] else '?' :: u.query)
    ++ (if u.fragment = [] then [] else '#' :: u.fragment)

/-- The text of a reference in its usual form: without empty queries and fragments. -/
def normal (cs : List Char) : List Char := (ofChars cs).chars

/-- A reference without its fragment, and the fragment. -/
def withoutFragment (cs : List Char) : List Char × List Char :=
  if '#' ∈ cs then
    let u := ofChars cs
    ({ u with fragment := [] }.chars, u.fragment)
  else (cs, [])

/-! ## Relative references -/

/-- The parts of a path without steps to the same and to the upper level. -/
def resolveDots (parts : List (List Char)) : List (List Char) :=
  let kept := parts.foldl (fun done part =>
    if part = ['.', '.'] then done.dropLast
    else if part = ['.'] then done
    else done ++ [part]) []
  match parts.getLast? with
  | some ['.'] | some ['.', '.'] => kept ++ [[]]
  | _ => kept

/-- The path of a relative path, read against a base path. -/
def joinPath (base path : List Char) : List Char :=
  let parts :=
    if path.head? = some '/' then Text.splitAt '/' path
    else
      let above := Text.splitAt '/' base
      let above := if above.getLast? = some [] then above else above.dropLast
      let all := above ++ Text.splitAt '/' path
      all.take 1 ++ (all.drop 1).dropLast.filter (· ≠ []) ++ (all.drop 1).getLast?.toList
  match Text.join ['/'] (resolveDots parts) with
  | [] => ['/']
  | cs => cs

/-- A reference, read against a base. -/
def join (base ref : List Char) : List Char :=
  if base = [] then ref
  else if ref = [] then base
  else
    let b := ofChars base
    let r := ofChars ref
    let scheme := if r.scheme = [] then b.scheme else r.scheme
    if scheme ≠ b.scheme ∨ !isHierarchical scheme then ref
    else if r.authority ≠ [] then { r with scheme }.chars
    else if r.path = [] then
      { r with
        scheme
        authority := b.authority
        path := b.path
        query := if r.query = [] then b.query else r.query }.chars
    else { r with scheme, authority := b.authority, path := joinPath b.path r.path }.chars

/-! ## Escaped characters -/

/-- The value of a digit in base sixteen. -/
def hexValue? (c : Char) : Option Nat :=
  if c.isDigit then some (c.toNat - 48)
  else if 'a' ≤ c ∧ c ≤ 'f' then some (c.toNat - 87)
  else if 'A' ≤ c ∧ c ≤ 'F' then some (c.toNat - 55)
  else none

/-- The bytes of ASCII characters; a percent sign and two digits in base sixteen denote one byte. -/
def bytes : List Char → List Nat
  | [] => []
  | '%' :: a :: b :: cs =>
    match hexValue? a, hexValue? b with
    | some m, some n => (16 * m + n) :: bytes cs
    | _, _ => '%'.toNat :: bytes (a :: b :: cs)
  | c :: cs => c.toNat :: bytes cs

/-- A text with its escaped characters read. -/
def unescaped (cs : List Char) : List Char :=
  let isAscii (c : Char) : Bool := c.toNat < 128
  (cs.splitBy fun a b => isAscii a == isAscii b).flatMap fun run =>
    if run.head?.all isAscii then Utf8.decodeLenient (bytes run) else run

end Uri

end DocDesk
