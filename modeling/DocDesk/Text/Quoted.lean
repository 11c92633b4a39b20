import DocDesk.Text.Printable

/-!
# Quoted text in messages

A text is quoted by single quotes, or by double quotes if it holds a single quote and no double
quote.  The quote, the backslash and the line controls are escaped, and every other unprintable
character is written by its code point.  Main statement: `quoteFor_eq_double_iff`.
-/

namespace DocDesk.Text

/-- The digits of a number in base sixteen, lower case, filled with zeros to a width. -/
def hexText (width n : Nat) : List Char :=
  let ds := Nat.toDigits 16 n
  List.replicate (width - ds.length) '0' ++ ds

/-- The quote that a text is enclosed by. -/
def quoteFor (cs : List Char) : Char :=
  if '\'' ∈ cs ∧ '"' ∉ cs then '"' else '\''

/-- One character inside quotes. -/
def quotedChar (quote c : Char) : List Char :=
  if c = quote ∨ c = '\\' then ['\\', c]
  else if c = '\n' then ['\\', 'n']
  else if c = '\r' then ['\\', 'r']
  else if c = '\t' then ['\\', 't']
  else if isPrintable c then [c]
  else if c.toNat < 0x100 then '\\' :: 'x' :: hexText 2 c.toNat
  else if c.toNat < 0x10000 then '\\' :: 'u' :: hexText 4 c.toNat
  else '\\' :: 'U' :: hexText 8 c.toNat

/-- The quoted form of a text. -/
def quotedChars (cs : List Char) : List Char :=
  let q := quoteFor cs
  q :: cs.flatMap (quotedChar q) ++ [q]

/-- The quoted form of a text. -/
def quoted (s : String) : String := String.ofList (quotedChars s.toList)

/-- A text is put between double quotes if it has single ones only. -/
theorem quoteFor_eq_double_iff {cs : List Char} : quoteFor cs = '"' ↔ '\'' ∈ cs ∧ '"' ∉ cs := by
  unfold quoteFor
  split <;> simp_all

end DocDesk.Text
