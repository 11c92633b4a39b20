import DocDesk.Text.Pattern.Basic

/-!
# Where a pattern occurs

A pattern is tried at a place with what is still to come as a continuation; a choice that leads nowhere
is taken back.  A repetition goes on only if its last round took characters, so that it ends.

Main definition: `occursIn`.
-/

namespace DocDesk.Text.Pattern

/-- A place in a text: the characters before it, nearest first, those after it, how many are before it,
and what the groups took. -/
structure Place where
  before : List Char
  after : List Char
  index : Nat
  groups : List (Nat × List Char)

/-- The place after the next character. -/
def Place.next? (s : Place) : Option (Char × Place) :=
  match s.after with
  | [] => none
  | c :: cs => some (c, { s with before := c :: s.before, after := cs, index := s.index + 1 })

/-- The place a number of characters back. -/
def Place.back? (s : Place) : Nat → Option Place
  | 0 => some s
  | n + 1 =>
    match s.before with
    | [] => none
    | c :: cs => Place.back? { s with before := cs, after := c :: s.after, index := s.index - 1 } n

/-- A place after given characters, compared one by one. -/
def Place.past? (same : Char → Char → Bool) (s : Place) : List Char → Option Place
  | [] => some s
  | c :: cs =>
    match s.next? with
    | some (d, s) => if same c d then s.past? same cs else none
    | none => none

/-- What is at a place that meets a condition. -/
def Anchor.holds (a : Anchor) (s : Place) : Bool :=
  match a with
  | .textStart => s.before.isEmpty
  | .textEnd => s.after.isEmpty
  | .lastLineEnd => s.after.isEmpty || s.after == ['\n']
  | .lineStart => s.before.head?.all (· == '\n')
  | .lineEnd => s.after.head?.all (· == '\n')
  | .boundary negated ascii =>
    let isPart (cs : List Char) : Bool := cs.head?.any (Kind.word.holds ascii)
    !(s.before.isEmpty && s.after.isEmpty) && (isPart s.before != isPart s.after) != negated

/-- What is still to be tried from a place on. -/
abbrev Rest := Place → Option Place

/-- Rounds of a repetition.  Up to the least number every round is wanted; after it a further round is
tried before or after the rest, but none after a round that took nothing. -/
def rounds (body : Place → Rest → Option Place) (short : Bool) :
    Nat → Nat → Option Nat → Option Nat → Place → Rest → Option Place
  | 0, _, _, _, s, k => k s
  | fuel + 1, least + 1, most, last, s, k =>
    body s fun t => rounds body short fuel least (most.map (· - 1)) last t k
  | fuel + 1, 0, most, last, s, k =>
    if most = some 0 ∨ last = some s.index then k s
    else
      let more := fun (_ : Unit) =>
        body s fun t => rounds body short fuel 0 (most.map (· - 1)) (some s.index) t k
      if short then (k s).orElse more
      else (more ()).orElse fun _ => k s

/-- Tries a pattern at a place, and then the rest. -/
def run : Pattern → Place → Rest → Option Place
  | .empty, s, k => k s
  | .one u, s, k =>
    match s.next? with
    | some (c, t) => if u.holds c then k t else none
    | none => none
  | .anchor a, s, k => if a.holds s then k s else none
  | .seq p q, s, k => run p s fun t => run q t k
  | .alt p q, s, k => (run p s k).orElse fun _ => run q s k
  | .rep .final min max p, s, k =>
    (rounds (run p) false (min + s.after.length + 1) min max none s some).bind k
  | .rep greed min max p, s, k =>
    rounds (run p) (greed == .short) (min + s.after.length + 1) min max none s k
  | .group n p, s, k =>
    run p s fun t =>
      k { t with groups := (n, s.after.take (t.index - s.index)) :: t.groups }
  | .atomic p, s, k => (run p s some).bind k
  | .ahead false p, s, k => (run p s some).bind fun t => k { s with groups := t.groups }
  | .ahead true p, s, k => if (run p s some).isSome then none else k s
  | .behind negated width p, s, k =>
    match (s.back? (width.getD 0)).bind fun t => run p t some with
    | some t => if negated then none else k { s with groups := t.groups }
    | none => if negated then k s else none
  | .again n ignoreCase ascii, s, k =>
    match s.groups.lookup n with
    | some cs =>
      let same := if ignoreCase then sameLetter ascii else fun a b => a == b
      (s.past? same cs).bind k
    | none => none
  | .given n yes no, s, k => if (s.groups.lookup n).isSome then run yes s k else run no s k

/-- Whether a pattern fits at a place of a text or at a later one. -/
def fitsFrom (p : Pattern) (before : List Char) (index : Nat) : List Char → Bool
  | [] => (run p ⟨before, [], index, []⟩ some).isSome
  | c :: cs =>
    (run p ⟨before, c :: cs, index, []⟩ some).isSome || fitsFrom p (c :: before) (index + 1) cs

/-- Whether a pattern fits at some place of a text. -/
def occursIn (p : Pattern) (s : String) : Bool := fitsFrom p [] 0 s.toList

end DocDesk.Text.Pattern
