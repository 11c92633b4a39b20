import DocDesk.Proofs.Text.Parts
import DocDesk.Yaml.Cursor

/-!
# Passing over raw text

Where a text holds only characters that need no escape, the cursor behind a part of it is known from
the part: each line break starts a line, every other character is one column.

Main statements: `forward_append`, `pass_of_no_break` and `pass_break_blanks`.
-/

namespace DocDesk.Yaml

/-! ## Raw text -/

/-- Every character of the text needs no escape. -/
def Raw (cs : List Char) : Prop := ∀ c ∈ cs, isRaw c = true

instance (cs : List Char) : Decidable (Raw cs) :=
  decidable_of_iff (cs.all isRaw = true) List.all_eq_true

/-- The empty text may stand as it is. -/
theorem Raw.nil : Raw [] := by simp [Raw]

/-- Two texts that may stand as they are may stand one behind the other. -/
theorem Raw.append {a b : List Char} (ha : Raw a) (hb : Raw b) : Raw (a ++ b) := by
  intro c hc
  rcases List.mem_append.mp hc with hc | hc
  · exact ha c hc
  · exact hb c hc

/-- A character may stand in front. -/
theorem Raw.cons {c : Char} {cs : List Char} (hc : isRaw c = true) (hcs : Raw cs) : Raw (c :: cs) :=
  List.forall_mem_cons.mpr ⟨hc, hcs⟩

/-- The front of a text may stand as it is. -/
theorem Raw.left {a b : List Char} (h : Raw (a ++ b)) : Raw a :=
  fun c hc => h c (List.mem_append_left b hc)

/-- So may the rest of it. -/
theorem Raw.right {a b : List Char} (h : Raw (a ++ b)) : Raw b :=
  fun c hc => h c (List.mem_append_right a hc)

/-- A character that needs no escape is no control character and no mark of the byte order. -/
theorem ne_of_isRaw {c : Char} (h : isRaw c = true) :
    c ≠ '\r' ∧ c ≠ '\t' ∧ c ≠ '\x00' ∧ c ≠ '\uFEFF' := by
  refine ⟨?_, ?_, ?_, ?_⟩ <;> rintro rfl <;> revert h <;> decide

/-- A blank or the end of a line, where nothing has to be escaped. -/
theorem isBlankOrBreak_of_isRaw {c : Char} (h : isRaw c = true) :
    isBlankOrBreak c = (c = ' ' || isBreak c) := by
  obtain ⟨h1, h2, h3, -⟩ := ne_of_isRaw h
  simp [isBlankOrBreak, h1, h2, h3]

/-! ## Places -/

namespace Mark

/-- The place behind some characters. -/
def pass (m : Mark) (cs : List Char) : Mark := cs.foldl (fun m c => Cursor.next m c []) m

variable {m : Mark} {cs ds : List Char}

@[simp] theorem pass_nil : m.pass [] = m := rfl

/-- Characters are passed one by one. -/
theorem pass_cons (c : Char) : m.pass (c :: cs) = (Cursor.next m c []).pass cs := rfl

/-- Two texts are passed one after the other. -/
theorem pass_append : m.pass (cs ++ ds) = (m.pass cs).pass ds := List.foldl_append

/-- A character that may stand as it is ends a line exactly if it is a break. -/
theorem endsLine_of_isRaw {c : Char} (h : isRaw c = true) (rest : List Char) :
    Cursor.endsLine c rest = isBreak c := by
  simp [Cursor.endsLine, (ne_of_isRaw h).1]

/-- The place behind it does not depend on what follows. -/
theorem next_of_isRaw {c : Char} (h : isRaw c = true) (rest : List Char) :
    Cursor.next m c rest = Cursor.next m c [] := by
  rw [Cursor.next, Cursor.next, endsLine_of_isRaw h, endsLine_of_isRaw h]

/-- No character leads back to a line before. -/
theorem line_le_pass : m.line ≤ (m.pass cs).line := by
  induction cs generalizing m with
  | nil => exact Nat.le_refl _
  | cons c cs ih =>
    have hnext : m.line ≤ (Cursor.next m c []).line := by
      unfold Cursor.next
      split
      · exact Nat.le_succ _
      · exact Nat.le_refl _
    exact Nat.le_trans hnext ih

/-- On one line the column counts the characters. -/
theorem pass_of_no_break (hraw : Raw cs) (h : ∀ c ∈ cs, isBreak c = false) :
    m.pass cs = ⟨m.index + cs.length, m.line, m.column + cs.length⟩ := by
  induction cs generalizing m with
  | nil => rfl
  | cons c cs ih =>
    obtain ⟨hc, hcs⟩ := List.forall_mem_cons.mp h
    have hrawc := hraw c List.mem_cons_self
    have hnext : Cursor.next m c [] = ⟨m.index + 1, m.line, m.column + 1⟩ := by
      rw [Cursor.next, endsLine_of_isRaw hrawc, hc, if_neg Bool.false_ne_true,
        if_neg (ne_of_isRaw hrawc).2.2.2]
    rw [pass_cons, hnext, ih (fun d hd => hraw d (List.mem_cons_of_mem _ hd)) hcs, List.length_cons]
    simp only [Mark.mk.injEq, true_and]
    omega

/-- A line break starts the next line. -/
theorem pass_break {c : Char} (hc : isBreak c = true) :
    m.pass [c] = ⟨m.index + 1, m.line + 1, 0⟩ := by
  have hends : Cursor.endsLine c [] = true := by rw [Cursor.endsLine, hc, Bool.true_or]
  rw [pass_cons, pass_nil, Cursor.next, if_pos hends]

end Mark

/-! ## Blanks -/

/-- A blank may stand as it is. -/
theorem isRaw_blank : isRaw ' ' = true := by decide

/-- So may blanks. -/
theorem raw_replicate (k : Nat) : Raw (List.replicate k ' ') := by
  intro c hc
  rw [List.eq_of_mem_replicate hc]
  exact isRaw_blank

/-- No blank is a break. -/
theorem isBreak_replicate (k : Nat) : ∀ c ∈ List.replicate k ' ', isBreak c = false := by
  intro c hc
  rw [List.eq_of_mem_replicate hc]
  rfl

/-- Behind a line break with blanks the blanks are counted. -/
theorem Mark.pass_break_blanks {m : Mark} {c : Char} (hc : isBreak c = true) (k : Nat) :
    m.pass (c :: List.replicate k ' ') = ⟨m.index + 1 + k, m.line + 1, k⟩ := by
  have hsplit : c :: List.replicate k ' ' = [c] ++ List.replicate k ' ' := rfl
  rw [hsplit, pass_append, pass_break hc, pass_of_no_break (raw_replicate k) (isBreak_replicate k),
    List.length_replicate]
  simp only [Nat.zero_add]

namespace Cursor

variable {m : Mark} {r : List Char}

/-- A text is passed as a whole. -/
theorem forward_append {u : List Char} (hu : Raw u) :
    (⟨m, u ++ r⟩ : Cursor).forward u.length = ⟨m.pass u, r⟩ := by
  induction u generalizing m with
  | nil => rfl
  | cons c u ih =>
    obtain ⟨hc, hu⟩ := List.forall_mem_cons.mp hu
    rw [List.length_cons, forward, List.cons_append, advance]
    dsimp only
    rw [Mark.next_of_isRaw hc, ih hu, Mark.pass_cons]

/-- One character is passed. -/
theorem advance_cons {c : Char} (hc : isRaw c = true) :
    (⟨m, c :: r⟩ : Cursor).advance = ⟨m.pass [c], r⟩ := by
  rw [advance]
  dsimp only
  rw [Mark.next_of_isRaw hc, Mark.pass_cons, Mark.pass_nil]

/-- A run that ends where it has to is cut off. -/
theorem span_append {p : Char → Bool} {u : List Char} (hu : Raw u) (hp : ∀ c ∈ u, p c = true)
    (hr : ∀ c ∈ r.head?, p c = false) : (⟨m, u ++ r⟩ : Cursor).span p = (u, ⟨m.pass u, r⟩) := by
  have htake := Text.takeWhile_append_of_stop hp hr
  simp only [span, htake, forward_append hu]

/-- A run that ends where it has to is passed. -/
theorem skip_append {p : Char → Bool} {u : List Char} (hu : Raw u) (hp : ∀ c ∈ u, p c = true)
    (hr : ∀ c ∈ r.head?, p c = false) : (⟨m, u ++ r⟩ : Cursor).skip p = ⟨m.pass u, r⟩ := by
  rw [skip, span_append hu hp hr]

/-- A line break of raw text. -/
theorem lineBreak?_cons {c : Char} (hraw : isRaw c = true) (hc : isBreak c = true) :
    (⟨m, c :: r⟩ : Cursor).lineBreak? =
      some (if c = '\x85' then '\n' else c, ⟨m.pass [c], r⟩) := by
  rw [← advance_cons hraw]
  simp only [isBreak, Bool.or_eq_true, decide_eq_true_eq] at hc
  rcases hc with ((rfl | rfl) | rfl) | rfl <;> rfl

/-- Where no break stands there is none to pass. -/
theorem lineBreak?_of_head (h : ∀ c ∈ r.head?, c ≠ '\r' ∧ isBreak c = false) :
    (⟨m, r⟩ : Cursor).lineBreak? = none := by
  cases r with
  | nil => rfl
  | cons c r =>
    obtain ⟨hreturn, hbreak⟩ := h c rfl
    simp only [isBreak, Bool.or_eq_false_iff, decide_eq_false_iff_not] at hbreak
    obtain ⟨⟨⟨h1, h2⟩, h3⟩, h4⟩ := hbreak
    unfold lineBreak?
    split
    · next heq => cases heq; exact absurd rfl hreturn
    · next heq =>
      cases heq
      simp [hreturn, h1, h2, h3, h4]
    · rfl

/-! ## Where tokens start -/

/-- The text is at its end, or starts with a character of a token. -/
def StartsToken (r : List Char) : Prop :=
  ∀ c ∈ r.head?, isRaw c = true ∧ c ≠ ' ' ∧ c ≠ '#' ∧ isBreak c = false

/-- The end of a text counts as the start of a token. -/
theorem startsToken_nil : StartsToken [] := by simp [StartsToken]

/-- A character that is no blank, no break and no hash starts a token. -/
theorem startsToken_cons {c : Char} (h : isRaw c = true ∧ c ≠ ' ' ∧ c ≠ '#' ∧ isBreak c = false)
    (r : List Char) : StartsToken (c :: r) := by
  intro d hd
  obtain rfl : c = d := by simpa using hd
  exact h

/-- Where a token starts there is no break. -/
theorem StartsToken.lineBreak? (h : StartsToken r) : (⟨m, r⟩ : Cursor).lineBreak? = none :=
  lineBreak?_of_head fun c hc => ⟨(ne_of_isRaw (h c hc).1).1, (h c hc).2.2.2⟩

/-- Blanks in front of a token are passed. -/
theorem StartsToken.skipBlanks (h : StartsToken r) (k : Nat) :
    (⟨m, List.replicate k ' ' ++ r⟩ : Cursor).skipBlanks = ⟨m.pass (List.replicate k ' '), r⟩ :=
  skip_append (raw_replicate k) (fun _ hc => decide_eq_true (List.eq_of_mem_replicate hc))
    fun c hc => decide_eq_false (h c hc).2.1

/-- A mark between documents starts with its own sign. -/
theorem atSeparator_of_head (h : ∀ c ∈ r.head?, c ≠ '-' ∧ c ≠ '.') :
    (⟨m, r⟩ : Cursor).atSeparator = false := by
  unfold atSeparator isTriple
  match r, h with
  | [], _ => rfl
  | [_], _ => rfl
  | [_, _], _ => rfl
  | a :: b :: d :: r, h =>
    obtain ⟨hminus, hpoint⟩ := h a rfl
    simp [hminus, hpoint]

end Cursor

end DocDesk.Yaml
