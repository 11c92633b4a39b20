import DocDesk.Text.Blank
import DocDesk.Text.Digit
import DocDesk.Text.LetterCase
import DocDesk.Text.Word

/-!
# Patterns

A pattern describes texts: characters and classes of characters, sequences, choices, repetitions,
numbered groups, references back to them, and conditions on what stands around a place.  Options such
as indifference to letter case are resolved when a pattern is read, so that every part says by itself
what it accepts.

Main statement: `One.holds_literal`.
-/

namespace DocDesk.Text

namespace Pattern

/-! ## One character -/

/-- A class of characters with a letter of its own. -/
inductive Kind where
  | digit
  | blank
  | word
deriving DecidableEq, Repr

/-- A character of a class; the narrow classes hold ASCII characters alone. -/
def Kind.holds (k : Kind) (ascii : Bool) (c : Char) : Bool :=
  (!ascii || c.toNat < 128) && match k with
    | .digit => isDigit c
    | .blank =>
      if ascii then c = ' ' || c = '\t' || c = '\n' || c = '\r' || c = '\x0b' || c = '\x0c'
      else isBlank c
    | .word => isWord c

/-- A part of a set: the code points of a range, or a class or its complement. -/
inductive Item where
  | range (lo hi : Nat)
  | kind (k : Kind) (negated : Bool)
deriving DecidableEq, Repr

/-- The characters that count as equal to a character where letter case does not matter. -/
def caseForms (ascii : Bool) (c : Char) : List Char :=
  if ascii then [c, c.toLower, c.toUpper]
  else
    let lower := lowerChar c
    match upperChar lower with
    | [upper] => [c, lower, upper, lowerChar upper]
    | _ => [c, lower]

/-- Two characters that count as equal where letter case does not matter. -/
def sameLetter (ascii : Bool) (a b : Char) : Bool :=
  if ascii then a.toLower = b.toLower
  else lowerChar a = lowerChar b || upperChar (lowerChar a) = upperChar (lowerChar b)

/-- A character of a part of a set. -/
def Item.holds (i : Item) (ignoreCase ascii : Bool) (c : Char) : Bool :=
  match i with
  | .range lo hi =>
    let inside (d : Char) : Bool := lo ≤ d.toNat && d.toNat ≤ hi
    let isEnd (n : Nat) : Bool := (Char.ofNat n).toNat = n && sameLetter ascii c (Char.ofNat n)
    inside c || ignoreCase && ((caseForms ascii c).any inside || isEnd lo || isEnd hi)
  | .kind k negated => k.holds ascii c != negated

/-- What a pattern asks of one character. -/
inductive One where
  | any (newlineToo : Bool)
  | set (negated : Bool) (items : List Item) (ignoreCase ascii : Bool)
deriving DecidableEq, Repr

/-- A character that is what was asked for. -/
def One.holds : One → Char → Bool
  | .any newlineToo, c => newlineToo || c ≠ '\n'
  | .set negated items ignoreCase ascii, c => items.any (·.holds ignoreCase ascii c) != negated

/-- The character with a code point. -/
def One.literal (n : Nat) (ignoreCase ascii : Bool) : One := .set false [.range n n] ignoreCase ascii

/-! ## Places in a text -/

/-- A condition on a place in a text. -/
inductive Anchor where
  | textStart
  | textEnd
  | lastLineEnd
  | lineStart
  | lineEnd
  | boundary (negated ascii : Bool)
deriving DecidableEq, Repr

/-- How a repetition chooses its length: as long as possible, as short as possible, or as long as
possible without a second try. -/
inductive Greed where
  | long
  | short
  | final
deriving DecidableEq, Repr

end Pattern

/-- A pattern. -/
inductive Pattern where
  | empty
  | one (u : Pattern.One)
  | anchor (a : Pattern.Anchor)
  | seq (p q : Pattern)
  | alt (p q : Pattern)
  | rep (greed : Pattern.Greed) (min : Nat) (max : Option Nat) (p : Pattern)
  | group (number : Nat) (p : Pattern)
  | atomic (p : Pattern)
  | ahead (negated : Bool) (p : Pattern)
  | behind (negated : Bool) (width : Option Nat) (p : Pattern)
  | again (number : Nat) (ignoreCase ascii : Bool)
  | given (number : Nat) (yes no : Pattern)
deriving Inhabited

namespace Pattern

/-- The pattern of several patterns in a row. -/
def ofList (ps : List Pattern) : Pattern := ps.foldr .seq .empty

/-! ## Widths -/

/-- The least and the greatest number of characters; no greatest number if there is no bound. -/
abbrev Width := Nat × Option Nat

/-- Widths of parts in a row. -/
def Width.add (a b : Width) : Width := (a.1 + b.1, do some ((← a.2) + (← b.2)))

/-- Widths of a choice. -/
def Width.join (a b : Width) : Width := (min a.1 b.1, do some (max (← a.2) (← b.2)))

/-- The width that is always the same, if there is one. -/
def Width.fixed? (w : Width) : Option Nat := if w.2 = some w.1 then some w.1 else none

/-- The width of a pattern, given the widths of the groups that it refers back to. -/
def width (groups : Nat → Width) : Pattern → Width
  | .one _ => (1, some 1)
  | .seq p q => (p.width groups).add (q.width groups)
  | .alt p q => (p.width groups).join (q.width groups)
  | .rep _ lo hi p =>
    let w := p.width groups
    (w.1 * lo, match w.2, hi with
      | some 0, _ => some 0
      | some n, some h => some (n * h)
      | _, _ => none)
  | .group _ p | .atomic p => p.width groups
  | .again n _ _ => groups n
  | .given _ p q => (p.width groups).join (q.width groups)
  | .empty | .anchor _ | .ahead _ _ | .behind _ _ _ => (0, some 0)

/-- Every look back in a pattern is over a fixed number of characters. -/
def looksBackFixed : Pattern → Bool
  | .seq p q | .alt p q | .given _ p q => p.looksBackFixed && q.looksBackFixed
  | .rep _ _ _ p | .group _ p | .atomic p | .ahead _ p => p.looksBackFixed
  | .behind _ w p => w.isSome && p.looksBackFixed
  | .empty | .one _ | .anchor _ | .again _ _ _ => true

/-- A literal holds of its own character and of no other. -/
theorem One.holds_literal (d : Char) (ascii : Bool) (c : Char) :
    (One.literal d.toNat false ascii).holds c = true ↔ c = d := by
  simp only [One.literal, One.holds, Item.holds, List.any_cons, List.any_nil]
  simp only [Bool.false_and, Bool.or_false, bne_iff_ne, ne_eq, Bool.not_eq_false, Bool.and_eq_true,
    decide_eq_true_eq]
  constructor
  · rintro ⟨h1, h2⟩
    exact Char.toNat_inj.1 (Nat.le_antisymm h2 h1)
  · rintro rfl
    exact ⟨Nat.le_refl _, Nat.le_refl _⟩

end Pattern

end DocDesk.Text
