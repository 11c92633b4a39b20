import DocDesk.Proofs.Yaml.Scan.Point

/-!
# Signs of a block

The hyphen of an item, the question mark and the colon of a member, empty brackets, and the mark of a
document's end, each with the blanks or the line break behind it.

Main statements: `finishes_of_entry`, `finishes_of_key`, `finishes_of_value` and `finishes_of_flow`.
-/

namespace DocDesk.Yaml

/-! ## Between tokens -/

/-- What stands between two tokens: blanks, one more than counted, or a line break and the indentation
of the next line. -/
inductive Space where
  | blanks (k : Nat)
  | line (k : Nat)
deriving DecidableEq, Repr

namespace Space

/-- The characters between the tokens. -/
def text : Space → List Char
  | .blanks k => List.replicate (k + 1) ' '
  | .line k => '\n' :: List.replicate k ' '

/-- The column behind the space, from the column before it. -/
def column (c : Nat) : Space → Nat
  | .blanks k => c + (k + 1)
  | .line k => k

/-- Whether a key may start behind the space: always on a new line. -/
def allows (before : Bool) : Space → Bool
  | .blanks _ => before
  | .line _ => true

variable {sp : Space} {m : Mark} {r : List Char} {s : TokenState}

/-- A space is a blank or a line break, with blanks behind it. -/
theorem exists_text (sp : Space) : ∃ e t, sp.text = e :: t ∧ (e = ' ' ∨ e = '\n') := by
  cases sp with
  | blanks k => exact ⟨' ', _, List.replicate_succ, .inl rfl⟩
  | line k => exact ⟨'\n', _, rfl, .inr rfl⟩

/-- It leads to its column. -/
theorem column_pass (sp : Space) (m : Mark) : (m.pass sp.text).column = sp.column m.column := by
  cases sp with
  | blanks k =>
    rw [text, Mark.pass_of_no_break (raw_replicate _) (isBreak_replicate _), List.length_replicate]
    rfl
  | line k =>
    rw [text, Mark.pass_break_blanks rfl]
    rfl

/-- It may stand as it is. -/
theorem raw_text (sp : Space) : Raw sp.text := by
  cases sp with
  | blanks k => exact raw_replicate _
  | line k => exact Raw.cons (by decide) (raw_replicate k)

/-- It is passed. -/
theorem approach (hs : s.cursor = ⟨m, sp.text ++ r⟩) (hdepth : s.depth = 0)
    (hr : Cursor.StartsToken r) :
    s.approach = { s with cursor := ⟨m.pass sp.text, r⟩, keyAllowed := sp.allows s.keyAllowed } := by
  cases sp with
  | blanks k => exact TokenState.approach_blanks hs hr
  | line k => exact TokenState.approach_break hs hdepth hr

end Space

open TokenState

namespace Point

variable {p : Point} {kinds? : Option (List Token.Kind)} {place : Mark} {tokens : List Token} {sp : Space}
  {r : List Char}

/-- The point behind a token of some characters and the space after it. -/
def past (p : Point) (kind : Token.Kind) (length : Nat) (before : Bool) (sp : Space) (r : List Char) :
    Point :=
  ⟨r, sp.column (p.column + length), p.indent, p.outer, sp.allows before, kind :: p.newest⟩

/-- A sign that is cut off leads to the point behind it. -/
theorem Fits.past (hfits : p.Fits place tokens) {t : Token} {u : List Char} {before : Bool}
    (hkind : t.kind ≠ .streamEnd) (hu : ∀ c ∈ u, isRaw c = true ∧ isBreak c = false) :
    (p.past t.kind u.length before sp r).Fits ((place.pass u).pass sp.text) (t :: tokens) where
  column := by
    rw [Space.column_pass, hfits.column_pass hu]
    rfl
  newest := congrArg (t.kind :: ·) hfits.newest
  more := List.not_mem_cons_of_ne_of_not_mem (Ne.symm hkind) hfits.more

/-- Behind the characters of a sign the state comes to the next point. -/
theorem exists_shows_past (kind : Token.Kind) (before : Bool) (sp : Space) (hfits : p.Fits place tokens)
    {u : List Char} (hkind : kind ≠ .streamEnd) (hu : ∀ c ∈ u, isRaw c = true ∧ isBreak c = false)
    (hrest : p.rest = u ++ (sp.text ++ r)) (hr : Cursor.StartsToken r) :
    ∃ n, ({ (p.state place tokens).pushNext kind u.length with keyAllowed := before } :
      TokenState).dropStale = .ok n ∧ n.Shows (p.past kind u.length before sp r) := by
  have hnext : (p.state place tokens).cursor.forward u.length = ⟨place.pass u, sp.text ++ r⟩ := by
    rw [state, hrest]
    exact Cursor.forward_append fun c hc => (hu c hc).1
  refine exists_shows ((place.pass u).pass sp.text)
    (s := { (p.state place tokens).pushNext kind u.length with keyAllowed := before })
    (hfits.past (t := ⟨kind, place, _⟩) hkind hu) (fun ps => ?_)
    fun _ hkey => absurd hkey List.not_mem_nil
  rw [Space.approach hnext rfl hr]
  rfl

/-- There is less text behind a sign. -/
theorem length_past_lt {u : List Char} {kind : Token.Kind} {before : Bool} {rest : List Char}
    (hrest : rest = u ++ (sp.text ++ r)) (hne : u ≠ []) :
    (p.past kind u.length before sp r).rest.length < rest.length := by
  have hpos := List.length_pos_iff.mpr hne
  have hr : (p.past kind u.length before sp r).rest = r := rfl
  rw [hrest, hr, List.length_append, List.length_append]
  omega

/-! ## Blocks that open -/

/-- The point in the block that opens at its column, if one does. -/
def opened (p : Point) (kind : Token.Kind) : Point :=
  if p.indent < p.column then
    { p with indent := p.column, outer := p.indent :: p.outer, newest := kind :: p.newest }
  else p

/-- A block at the present indentation is open already. -/
theorem opened_of_eq {kind : Token.Kind} (h : p.indent = p.column) : p.opened kind = p :=
  if_neg (by omega)

/-- Opening a block does not end the stream. -/
theorem Fits.notMem_opened (hfits : p.Fits place tokens) (kind : Token.Kind)
    (hkind : kind ≠ .streamEnd) : Token.Kind.streamEnd ∉ (p.opened kind).newest := by
  rw [opened]
  split
  · exact List.not_mem_cons_of_ne_of_not_mem (Ne.symm hkind) hfits.more
  · exact hfits.more

/-- Opening a block leads to the point in it. -/
theorem exists_openBlock (hfits : p.Fits place tokens) (kind : Token.Kind) (hkind : kind ≠ .streamEnd) :
    ∃ more, (p.opened kind).Fits place more ∧
      (p.state place tokens).openBlock kind = (p.opened kind).state place more := by
  have hcolumn : (p.state place tokens).cursor.column = p.column := hfits.column
  have hindent : (p.state place tokens).indent = p.indent := rfl
  by_cases hopen : p.indent < p.column
  · refine ⟨.virtual kind place :: tokens, ?_, ?_⟩
    · have hmore := hfits.notMem_opened kind hkind
      rw [opened, if_pos hopen] at hmore ⊢
      exact ⟨hfits.column, congrArg (kind :: ·) hfits.newest, hmore⟩
    · rw [openBlock, opensBlock, hcolumn, hindent, if_pos (decide_eq_true hopen), opened, if_pos hopen]
      rfl
  · refine ⟨tokens, ?_, ?_⟩
    · rw [opened, if_neg hopen]
      exact hfits
    · rw [openBlock, opensBlock, hcolumn, hindent, if_neg (by simpa using hopen), opened, if_neg hopen]

/-- Opening a block takes no characters. -/
theorem rest_opened (p : Point) (kind : Token.Kind) : (p.opened kind).rest = p.rest := by
  rw [opened]
  split <;> rfl

/-! ## Signs -/

/-- Two characters that differ are not part of three that are equal. -/
theorem isTriple_of_ne {m : Mark} {a e ch : Char} {t : List Char} (h : a ≠ ch ∨ e ≠ ch) :
    (⟨m, a :: e :: t⟩ : Cursor).isTriple ch = false := by
  unfold Cursor.isTriple
  split
  · next heq =>
    cases heq
    rcases h with h | h <;> simp [h]
  · rfl

section Cut

variable {s : TokenState} {m : Mark} {t : List Char}

/-- A dash and a blank are the sign of an item. -/
theorem cut_entry (hs : s.cursor = ⟨m, '-' :: ' ' :: t⟩) : s.cut = s.blockEntry := by
  simp [cut, hs, isTriple_of_ne, Cursor.peek, Cursor.peekAt, isBlankOrBreak]

/-- A question mark and a blank are the sign of a key. -/
theorem cut_key (hs : s.cursor = ⟨m, '?' :: ' ' :: t⟩) : s.cut = s.key := by
  simp [cut, hs, isTriple_of_ne, Cursor.peek, Cursor.peekAt, isBlankOrBreak]

/-- A colon with a blank or a line break behind it is the sign of a value. -/
theorem cut_value {e : Char} (hs : s.cursor = ⟨m, ':' :: e :: t⟩) (he : e = ' ' ∨ e = '\n') :
    s.cut = s.value := by
  have hapart : isBlankOrBreak e = true := by
    rcases he with rfl | rfl <;> rfl
  simp [cut, hs, isTriple_of_ne, Cursor.peek, Cursor.peekAt, hapart]

/-- Three dots on a line of their own end the document. -/
theorem cut_documentEnd (hs : s.cursor = ⟨m, ['.', '.', '.', '\n']⟩) (hm : m.column = 0) :
    s.cut = s.separator .documentEnd := by
  simp [cut, hs, Cursor.peek, Cursor.isTriple, Cursor.column, hm, Style.blankFollows, isBlankOrBreak,
    isBreak]

end Cut

/-- A hyphen before an item. -/
theorem finishes_of_entry {k : Nat} (hrest : p.rest = '-' :: ((Space.blanks k).text ++ r))
    (hr : Cursor.StartsToken r) (hallowed : p.keyAllowed = true) (hindent : p.indent ≤ p.column)
    (hq : ((p.opened .blockSequenceStart).past .blockEntry 1 true (.blanks k) r).Finishes kinds?) :
    p.Finishes kinds? := by
  refine finishes_of_next hindent (length_past_lt (u := ['-']) hrest (List.cons_ne_nil _ _))
    (fun place tokens hfits => ?_) hq
  obtain ⟨more, hmore, hopen⟩ := exists_openBlock hfits .blockSequenceStart (by decide)
  obtain ⟨n, hn, hshows⟩ := exists_shows_past .blockEntry true (.blanks k) hmore (u := ['-'])
    (by decide) (Text.forall_mem_of_all (by decide)) ((p.rest_opened _).trans hrest) hr
  have hcursor : (p.state place tokens).cursor = ⟨place, '-' :: ' ' :: (List.replicate k ' ' ++ r)⟩ := by
    rw [state, hrest]
    rfl
  refine ⟨_, n, (cut_entry hcursor).trans ?_, hn, hshows⟩
  have hka : (p.state place tokens).keyAllowed = true := hallowed
  have hdepth : (p.state place tokens).depth = 0 := rfl
  rw [blockEntry, hka, hdepth, hopen]
  rfl

/-- A question mark before a key. -/
theorem finishes_of_key {k : Nat} (hrest : p.rest = '?' :: ((Space.blanks k).text ++ r))
    (hr : Cursor.StartsToken r) (hallowed : p.keyAllowed = true) (hindent : p.indent ≤ p.column)
    (hq : ((p.opened .blockMappingStart).past .key 1 true (.blanks k) r).Finishes kinds?) :
    p.Finishes kinds? := by
  refine finishes_of_next hindent (length_past_lt (u := ['?']) hrest (List.cons_ne_nil _ _))
    (fun place tokens hfits => ?_) hq
  obtain ⟨more, hmore, hopen⟩ := exists_openBlock hfits .blockMappingStart (by decide)
  obtain ⟨n, hn, hshows⟩ := exists_shows_past .key true (.blanks k) hmore (u := ['?'])
    (by decide) (Text.forall_mem_of_all (by decide)) ((p.rest_opened _).trans hrest) hr
  have hcursor : (p.state place tokens).cursor = ⟨place, '?' :: ' ' :: (List.replicate k ' ' ++ r)⟩ := by
    rw [state, hrest]
    rfl
  refine ⟨_, n, (cut_key hcursor).trans ?_, hn, hshows⟩
  have hka : (p.state place tokens).keyAllowed = true := hallowed
  have hdepth : (p.state place tokens).depth = 0 := rfl
  rw [key, hka, hdepth, hopen]
  rfl

/-- A colon at the start of a line, behind a key that stands on lines of its own. -/
theorem finishes_of_value (sp : Space) (hrest : p.rest = ':' :: (sp.text ++ r)) (hr : Cursor.StartsToken r)
    (hallowed : p.keyAllowed = true) (hindent : p.indent = p.column)
    (hq : (p.past .value 1 true sp r).Finishes kinds?) : p.Finishes kinds? := by
  refine finishes_of_next (Int.le_of_eq hindent) (length_past_lt (u := [':']) hrest (List.cons_ne_nil _ _))
    (fun place tokens hfits => ?_) hq
  obtain ⟨n, hn, hshows⟩ := exists_shows_past .value true sp hfits (u := [':']) (by decide)
    (Text.forall_mem_of_all (by decide)) hrest hr
  obtain ⟨e, t, htext, he⟩ := sp.exists_text
  have hcursor : (p.state place tokens).cursor = ⟨place, ':' :: e :: (t ++ r)⟩ := by
    rw [state, hrest, htext]
    rfl
  refine ⟨_, n, (cut_value hcursor he).trans ?_, hn, hshows⟩
  have hopen : (p.state place tokens).openBlock .blockMappingStart = p.state place tokens := by
    have hcolumn : (p.state place tokens).cursor.column = p.column := hfits.column
    refine if_neg ?_
    rw [opensBlock, hcolumn, decide_eq_true_eq]
    exact Int.not_lt.mpr (Int.le_of_eq hindent.symm)
  have hka : (p.state place tokens).keyAllowed = true := hallowed
  have hdepth : (p.state place tokens).depth = 0 := rfl
  rw [value, hka, hdepth, hopen]
  rfl

/-- The mark of a document's end, outside all blocks. -/
theorem finishes_of_documentEnd (hrest : p.rest = ['.', '.', '.', '\n']) (hcolumn : p.column = 0)
    (hindent : p.indent = -1) (hq : (p.past .documentEnd 3 false (.line 0) []).Finishes kinds?) :
    p.Finishes kinds? := by
  have hle : p.indent ≤ (p.column : Int) := by omega
  refine finishes_of_next hle (length_past_lt (u := ['.', '.', '.']) hrest (List.cons_ne_nil _ _))
    (fun place tokens hfits => ?_) hq
  obtain ⟨n, hn, hshows⟩ := exists_shows_past .documentEnd false (.line 0) hfits (u := ['.', '.', '.'])
    (r := []) (by decide) (Text.forall_mem_of_all (by decide)) hrest Cursor.startsToken_nil
  have hcursor : (p.state place tokens).cursor = ⟨place, ['.', '.', '.', '\n']⟩ := by
    rw [state, hrest]
  refine ⟨_, n, (cut_documentEnd hcursor (hfits.column.trans hcolumn)).trans ?_, hn, hshows⟩
  rw [separator, unwind_of_le (Int.le_of_eq hindent)]
  rfl

end Point

end DocDesk.Yaml
