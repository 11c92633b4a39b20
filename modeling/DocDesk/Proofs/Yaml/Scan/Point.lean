import DocDesk.Proofs.Yaml.Cursor
import DocDesk.Yaml.Token.Stream

/-!
# Points of a scan

Between two tokens of a block the scanner's state is known from a few data: the text left, the column,
the indentations, whether a key may start, and the kinds of the tokens so far.  A point holds these.  What
a scan yields from a point on does not depend on anything else: tokens of certain kinds, or a fault.

Main statements: `Point.finishes_of_next`, `Point.finishes_of_close` and `Point.finishes_none_of_cut`.
-/

namespace DocDesk.Yaml

namespace TokenState

variable {s n : TokenState} {kinds? : Option (List Token.Kind)} {b : Nat}

/-! ## Runs -/

/-- The text has not come to its end. -/
def IsOpen (s : TokenState) : Prop := Token.Kind.streamEnd ∉ s.newest.map Token.kind

/-- A scan that is open is not done. -/
theorem IsOpen.not_isDone (h : s.IsOpen) : s.isDone = false := by
  rw [isDone]
  cases hnewest : s.newest with
  | nil => rfl
  | cons t newest =>
    rw [IsOpen, hnewest, List.map_cons] at h
    exact decide_eq_false (List.ne_of_not_mem_cons h).symm

/-- The tokens are of given kinds without a fault behind them, or there is a fault before their end. -/
def Yields (t : TokenStream) : Option (List Token.Kind) → Prop
  | some kinds => t.fault = none ∧ t.tokens.map Token.kind = kinds
  | none => t.fault ≠ none ∧ Token.Kind.streamEnd ∉ t.tokens.map Token.kind

/-- With enough steps the scan goes on from the state to tokens of given kinds, or to a fault. -/
def Ends (s : TokenState) (kinds? : Option (List Token.Kind)) (b : Nat) : Prop :=
  ∀ fuel, b ≤ fuel → Yields (TokenStream.collect fuel s) kinds?

/-- More steps do no harm. -/
theorem Ends.mono {b' : Nat} (h : s.Ends kinds? b) (hb : b ≤ b') : s.Ends kinds? b' :=
  fun fuel hfuel => h fuel (Nat.le_trans hb hfuel)

/-- A scan that has come to the end of the text. -/
theorem Ends.of_isDone (hdone : s.isDone = true) :
    s.Ends (some (s.newest.reverse.map Token.kind)) 0 := by
  intro fuel _
  have hcollect : TokenStream.collect fuel s = ⟨s.newest.reverse, none⟩ := by
    cases fuel with
    | zero => rfl
    | succ fuel => exact if_pos hdone
  rw [hcollect]
  exact ⟨rfl, rfl⟩

/-- A step leads on to the end of what comes behind it. -/
theorem Ends.of_step (hopen : s.IsOpen) (hstep : s.step = .ok n) (hn : n.Ends kinds? b) :
    s.Ends kinds? (b + 1) := by
  intro fuel hfuel
  obtain ⟨fuel, rfl⟩ := Nat.exists_eq_succ_of_ne_zero (show fuel ≠ 0 by omega)
  rw [TokenStream.collect, hopen.not_isDone, if_neg Bool.false_ne_true, hstep]
  exact hn fuel (Nat.le_of_succ_le_succ hfuel)

/-- What was certain when a step failed is the last that there is. -/
theorem yields_none (hopen : s.IsOpen) {f : Fault} (hstep : s.step = .error f) (fuel : Nat) :
    Yields (TokenStream.collect (fuel + 1) s) none := by
  rw [TokenStream.collect, hopen.not_isDone, if_neg Bool.false_ne_true, hstep]
  refine ⟨Option.some_ne_none f, fun hmem => hopen ?_⟩
  obtain ⟨t, ht, hkind⟩ := List.mem_map.mp hmem
  exact List.mem_map.mpr ⟨t, List.mem_reverse.mp (List.mem_of_mem_take ht), hkind⟩

/-- A step that fails ends the scan. -/
theorem Ends.of_fault (hopen : s.IsOpen) {f : Fault} (hstep : s.step = .error f) : s.Ends none 1 := by
  intro fuel hfuel
  obtain ⟨fuel, rfl⟩ := Nat.exists_eq_succ_of_ne_zero (show fuel ≠ 0 by omega)
  exact yields_none hopen hstep fuel

/-- States with the same next step end the same way. -/
theorem Ends.congr {t : TokenState} (hs : s.IsOpen) (ht : t.IsOpen) (hstep : s.step = t.step)
    (h : t.Ends kinds? (b + 1)) : s.Ends kinds? (b + 1) := by
  intro fuel hfuel
  obtain ⟨fuel, rfl⟩ := Nat.exists_eq_succ_of_ne_zero (show fuel ≠ 0 by omega)
  have hyields := h (fuel + 1) hfuel
  cases hnext : t.step with
  | ok next =>
    rw [TokenStream.collect, ht.not_isDone, if_neg Bool.false_ne_true, hnext] at hyields
    rw [TokenStream.collect, hs.not_isDone, if_neg Bool.false_ne_true, hstep, hnext]
    exact hyields
  | error f =>
    cases kinds? with
    | none => exact yields_none hs (hstep.trans hnext) fuel
    | some kinds => exact absurd hyields.1 (yields_none ht hnext fuel).1

/-! ## The way to the next token -/

/-- The state where the next token starts. -/
def approach (s : TokenState) : TokenState :=
  toNextToken (s.cursor.rest.length + 1) s.skipByteOrderMark

/-- The state where the next token starts, without the keys that cannot be keys any more. -/
def settle (s : TokenState) : Except Fault TokenState := s.approach.dropStale

/-- A step settles, closes blocks, cuts a token and drops the keys that can be none any more. -/
theorem step_eq :
    s.step = s.settle.bind fun s => (s.unwind s.cursor.column).cut.bind dropStale := rfl

/-- From a settled state within its blocks a step cuts the next token. -/
theorem step_of_settle {t : TokenState} (hsettle : s.settle = .ok t)
    (hunwind : t.unwind t.cursor.column = t) (hcut : t.cut = .ok n) : s.step = n.dropStale := by
  rw [step_eq, hsettle]
  dsimp only [Except.bind]
  rw [hunwind, hcut]

/-- Without a byte order mark nothing is passed. -/
theorem skipByteOrderMark_eq (h : s.cursor.rest.head? ≠ some '\uFEFF') : s.skipByteOrderMark = s := by
  refine if_neg ?_
  rw [Bool.and_eq_true, decide_eq_true_eq, decide_eq_true_eq]
  rintro ⟨-, hpeek⟩
  cases hrest : s.cursor.rest with
  | nil =>
    rw [Cursor.peek, hrest] at hpeek
    revert hpeek
    decide
  | cons c r =>
    rw [Cursor.peek, hrest] at hpeek
    rw [hrest] at h
    exact h (congrArg some hpeek)

variable {m : Mark} {r : List Char}

/-- Blanks are passed. -/
theorem toNextToken_blanks {k fuel : Nat} (hs : s.cursor = ⟨m, List.replicate k ' ' ++ r⟩)
    (hr : Cursor.StartsToken r) :
    toNextToken (fuel + 1) s = { s with cursor := ⟨m.pass (List.replicate k ' '), r⟩ } := by
  have hcomment : (⟨m.pass (List.replicate k ' '), r⟩ : Cursor).skipComment =
      ⟨m.pass (List.replicate k ' '), r⟩ := by
    refine if_neg fun hpeek => ?_
    cases r with
    | nil => exact absurd hpeek (show '\x00' ≠ '#' by decide)
    | cons c r => exact (hr c rfl).2.2.1 hpeek
  rw [toNextToken, hs, hr.skipBlanks, hcomment, hr.lineBreak?]

/-- A line break with the blanks behind it is passed, and a key may start there. -/
theorem toNextToken_break {k fuel : Nat} (hs : s.cursor = ⟨m, '\n' :: (List.replicate k ' ' ++ r)⟩)
    (hdepth : s.depth = 0) (hr : Cursor.StartsToken r) :
    toNextToken (fuel + 2) s =
      { s with cursor := ⟨m.pass ('\n' :: List.replicate k ' '), r⟩, keyAllowed := true } := by
  have hblanks : s.cursor.skipBlanks = s.cursor := by
    rw [hs]
    exact Cursor.skip_append (u := []) (by simp [Raw]) (by simp) (by simp)
  have hcomment : s.cursor.skipComment = s.cursor := by
    rw [hs]
    exact if_neg (show '\n' ≠ '#' by decide)
  have hline : s.cursor.lineBreak? = some ('\n', ⟨m.pass ['\n'], List.replicate k ' ' ++ r⟩) := by
    rw [hs]
    exact Cursor.lineBreak?_cons (by decide) (by decide)
  rw [toNextToken, hblanks, hcomment, hline]
  dsimp only
  rw [toNextToken_blanks rfl hr]
  simp only [hdepth, decide_true, Bool.or_true]
  rfl

/-- Blanks in front of a token are passed. -/
theorem approach_blanks {k : Nat} (hs : s.cursor = ⟨m, List.replicate k ' ' ++ r⟩)
    (hr : Cursor.StartsToken r) :
    s.approach = { s with cursor := ⟨m.pass (List.replicate k ' '), r⟩ } := by
  have hmark : s.cursor.rest.head? ≠ some '\uFEFF' := by
    rw [hs]
    cases k with
    | zero =>
      intro hhead
      exact (ne_of_isRaw (hr '\uFEFF' hhead).1).2.2.2 rfl
    | succ k => simp [List.replicate_succ]
  rw [approach, skipByteOrderMark_eq hmark, toNextToken_blanks hs hr]

/-- Where a token starts, nothing is passed. -/
theorem approach_self (h : Cursor.StartsToken s.cursor.rest) : s.approach = s :=
  approach_blanks (k := 0) rfl h

/-- So is a line break with blanks behind it, outside of brackets and braces. -/
theorem approach_break {k : Nat} (hs : s.cursor = ⟨m, '\n' :: (List.replicate k ' ' ++ r)⟩)
    (hdepth : s.depth = 0) (hr : Cursor.StartsToken r) :
    s.approach = { s with cursor := ⟨m.pass ('\n' :: List.replicate k ' '), r⟩, keyAllowed := true } := by
  have hmark : s.cursor.rest.head? ≠ some '\uFEFF' := by
    rw [hs]
    simp
  have hlength : s.cursor.rest.length = (List.replicate k ' ' ++ r).length + 1 := by
    rw [hs, List.length_cons]
  rw [approach, skipByteOrderMark_eq hmark, hlength, toNextToken_break hs hdepth hr]

/-! ## Pending keys -/

/-- Without a stale key that is required, the stale keys are given up and there is no fault. -/
theorem dropStale_of_free (h : ∀ k ∈ s.pending, (isStale s.cursor.place k && k.required) = false) :
    s.dropStale = .ok { s with pending := s.pending.filter fun k => !isStale s.cursor.place k } := by
  have hfind : (s.pending.find? fun k => isStale s.cursor.place k && k.required) = none := by
    rw [List.find?_eq_none]
    exact fun k hk => Bool.not_eq_true _ ▸ h k hk
  rw [dropStale, hfind]

/-- Keys that are not required are given up without a fault. -/
theorem dropStale_eq (h : ∀ k ∈ s.pending, k.required = false) :
    s.dropStale = .ok { s with pending := s.pending.filter fun k => !isStale s.cursor.place k } :=
  dropStale_of_free fun k hk => by rw [h k hk, Bool.and_false]

/-- Where no key is pending none is dropped. -/
theorem dropStale_of_pending (h : s.pending = []) : s.dropStale = .ok s := by
  have hkeys : ∀ k ∈ s.pending, k.required = false := by simp [h]
  rw [dropStale_eq hkeys, h, List.filter_nil, ← h]

/-- Keys that still can be keys stay pending. -/
theorem dropStale_of_fresh (h : ∀ k ∈ s.pending, isStale s.cursor.place k = false) :
    s.dropStale = .ok s := by
  have hfilter : (s.pending.filter fun k => !isStale s.cursor.place k) = s.pending := by
    rw [List.filter_eq_self]
    intro k hk
    rw [h k hk]
    rfl
  rw [dropStale_of_free fun k hk => by rw [h k hk, Bool.false_and], hfilter]

/-! ## Blocks -/

/-- Blocks that are not indented deeper stay open. -/
theorem closeBlocks_of_le {column : Int} {outer : List Int} (h : s.indent ≤ column) :
    closeBlocks column outer s = s := by
  rw [closeBlocks.eq_def]
  exact if_pos (.inr h)

/-- A column that is not less than the indentation closes nothing. -/
theorem unwind_of_le {column : Int} (h : s.indent ≤ column) : s.unwind column = s :=
  closeBlocks_of_le h

/-- The innermost block is closed in front of a token to its left. -/
theorem unwind_cons {column i : Int} {outer : List Int} (hdepth : s.depth = 0)
    (houter : s.outer = i :: outer) (h : column < s.indent) :
    s.unwind column =
      ({ s.pushVirtual .blockEnd with indent := i, outer := outer } : TokenState).unwind column := by
  have hnot : ¬ (s.depth ≠ 0 ∨ s.indent ≤ column) := by omega
  rw [unwind, houter, closeBlocks, if_neg hnot]
  rfl

end TokenState

open TokenState

/-! ## Points -/

/-- What is known of a state where a token starts, outside brackets. -/
structure Point where
  rest : List Char
  column : Nat
  indent : Int
  outer : List Int
  keyAllowed : Bool
  newest : List Token.Kind

namespace Point

/-- The state of a point at a place, behind given tokens. -/
def state (p : Point) (place : Mark) (tokens : List Token) : TokenState :=
  ⟨⟨place, p.rest⟩, tokens, 0, p.indent, p.outer, p.keyAllowed, []⟩

/-- The point behind the end of the innermost block. -/
def closed (p : Point) (i : Int) (outer : List Int) : Point :=
  { p with indent := i, outer := outer, newest := .blockEnd :: p.newest }

/-- A place and tokens that a point may stand for. -/
structure Fits (p : Point) (place : Mark) (tokens : List Token) : Prop where
  column : place.column = p.column
  newest : tokens.map Token.kind = p.newest
  more : Token.Kind.streamEnd ∉ p.newest

end Point

/-- The state comes to the point where its next token starts. -/
def TokenState.Shows (s : TokenState) (p : Point) : Prop :=
  s.IsOpen ∧ ∃ place tokens, p.Fits place tokens ∧ s.settle = .ok (p.state place tokens)

/-- From the point on the scan yields tokens of given kinds, or a fault. -/
def Point.Finishes (p : Point) (kinds? : Option (List Token.Kind)) : Prop :=
  ∀ s : TokenState, s.Shows p → s.Ends kinds? (p.rest.length + 1)

namespace Point

variable {p q : Point} {kinds? : Option (List Token.Kind)} {place : Mark} {tokens : List Token}

/-- A scan at a point is open. -/
theorem Fits.isOpen (h : p.Fits place tokens) : (p.state place tokens).IsOpen := by
  have hkinds : (p.state place tokens).newest.map Token.kind = p.newest := h.newest
  rw [TokenState.IsOpen, hkinds]
  exact h.more

/-- One more token is not the end of the text. -/
theorem Fits.isOpen_cons (h : p.Fits place tokens) {s : TokenState} {t : Token}
    (hkind : t.kind ≠ .streamEnd) (hnewest : s.newest = t :: tokens) : s.IsOpen := by
  rw [TokenState.IsOpen, hnewest, List.map_cons, h.newest]
  exact List.not_mem_cons_of_ne_of_not_mem (Ne.symm hkind) h.more

/-- A text without line breaks ends as many columns on as it has characters. -/
theorem Fits.column_pass (h : p.Fits place tokens) {u : List Char}
    (hu : ∀ c ∈ u, isRaw c = true ∧ isBreak c = false) :
    (place.pass u).column = p.column + u.length := by
  rw [Mark.pass_of_no_break (fun c hc => (hu c hc).1) fun c hc => (hu c hc).2, h.column]

/-- Where a token starts nothing is passed. -/
theorem settle_state (h : Cursor.StartsToken p.rest) :
    (p.state place tokens).settle = .ok (p.state place tokens) := by
  rw [settle, approach_self h, dropStale_of_pending rfl]

/-- A state comes to a point if its text does and no key is left pending there. -/
theorem exists_shows {s : TokenState} (place : Mark) (hfits : p.Fits place s.newest)
    (happroach : ∀ ps, ({ s with pending := ps } : TokenState).approach =
      { p.state place s.newest with pending := ps })
    (hfree : ∀ k ∈ s.pending, k.required = false ∧ k.place.line < place.line) :
    ∃ n, s.dropStale = .ok n ∧ n.Shows p := by
  refine ⟨_, dropStale_eq fun k hk => (hfree k hk).1, ?_, place, s.newest, hfits, ?_⟩
  · exact hfits.isOpen
  · rw [settle, happroach]
    have hkeys : ∀ k ∈ s.pending.filter fun k => !isStale s.cursor.place k, k.required = false :=
      fun k hk => (hfree k (List.mem_filter.mp hk).1).1
    rw [dropStale_eq hkeys]
    have hnone : ((s.pending.filter fun k => !isStale s.cursor.place k).filter
        fun k => !isStale place k) = [] := by
      rw [List.filter_eq_nil_iff]
      intro k hk
      have hline := (hfree k (List.mem_filter.mp hk).1).2
      have hstale : isStale place k = true := by
        rw [isStale, Bool.or_eq_true]
        exact .inl (decide_eq_true (Nat.ne_of_lt hline))
      rw [hstale]
      decide
    exact congrArg (fun ps => Except.ok { p.state place s.newest with pending := ps }) hnone

/-- The step from a state that comes to a point is the cut of the next token. -/
theorem step_of_cut {s n : TokenState} (hindent : p.indent ≤ p.column) (hfits : p.Fits place tokens)
    (hsettle : s.settle = .ok (p.state place tokens)) (hcut : (p.state place tokens).cut = .ok n) :
    s.step = n.dropStale := by
  refine step_of_settle hsettle (unwind_of_le ?_) hcut
  have hcolumn : (p.state place tokens).cursor.column = p.column := hfits.column
  rw [hcolumn]
  exact hindent

/-- The scan goes on from a point as it does behind the next token. -/
theorem finishes_of_cut (hindent : p.indent ≤ p.column)
    (hcut : ∀ place tokens, p.Fits place tokens → ∃ n n', (p.state place tokens).cut = .ok n ∧
      n.dropStale = .ok n' ∧ n'.Ends kinds? p.rest.length) : p.Finishes kinds? := by
  rintro s ⟨hopen, place, tokens, hfits, hsettle⟩
  obtain ⟨n, n', hn, hdrop, hends⟩ := hcut place tokens hfits
  exact .of_step hopen ((step_of_cut hindent hfits hsettle hn).trans hdrop) hends

/-- The scan breaks off at a point where the next token leaves a key without its colon. -/
theorem finishes_none_of_cut (hindent : p.indent ≤ p.column)
    (hcut : ∀ place tokens, p.Fits place tokens → ∃ n f, (p.state place tokens).cut = .ok n ∧
      n.dropStale = .error f) : p.Finishes none := by
  rintro s ⟨hopen, place, tokens, hfits, hsettle⟩
  obtain ⟨n, f, hn, hdrop⟩ := hcut place tokens hfits
  exact (Ends.of_fault hopen ((step_of_cut hindent hfits hsettle hn).trans hdrop)).mono (Nat.le_add_left _ _)

/-- One more token leads from a point to the next. -/
theorem finishes_of_next (hindent : p.indent ≤ p.column) (hrest : q.rest.length < p.rest.length)
    (hnext : ∀ place tokens, p.Fits place tokens →
      ∃ n n', (p.state place tokens).cut = .ok n ∧ n.dropStale = .ok n' ∧ n'.Shows q)
    (hq : q.Finishes kinds?) : p.Finishes kinds? := by
  refine finishes_of_cut hindent fun place tokens hfits => ?_
  obtain ⟨n, n', hcut, hdrop, hshows⟩ := hnext place tokens hfits
  exact ⟨n, n', hcut, hdrop, (hq n' hshows).mono hrest⟩

/-! ## Ends of blocks and of the text -/

/-- At the end of the text the stream is ended. -/
theorem cut_of_isEmpty (hrest : p.rest = []) :
    (p.state place tokens).cut = (p.state place tokens).streamEnd := by
  refine if_pos ?_
  rw [state, hrest]
  rfl

/-- With all blocks closed that is one token more. -/
theorem streamEnd_state (hindent : p.indent = -1) :
    (p.state place tokens).streamEnd =
      .ok { (p.state place tokens).pushVirtual .streamEnd with keyAllowed := false, pending := [] } := by
  rw [streamEnd, unwind_of_le (Int.le_of_eq hindent)]
  rfl

/-- The end of the text, outside all blocks. -/
theorem finishes_of_end (hrest : p.rest = []) (hindent : p.indent = -1) :
    p.Finishes (some (.streamEnd :: p.newest).reverse) := by
  have hle : p.indent ≤ (p.column : Int) := by omega
  refine finishes_of_cut hle fun place tokens hfits => ?_
  refine ⟨_, _, (cut_of_isEmpty hrest).trans (streamEnd_state hindent), dropStale_of_pending rfl, ?_⟩
  have hkinds : (.streamEnd :: p.newest).reverse =
      (Token.virtual .streamEnd place :: tokens).reverse.map Token.kind := by
    rw [List.map_reverse, List.map_cons, hfits.newest]
    rfl
  rw [hkinds]
  exact (Ends.of_isDone rfl).mono (Nat.zero_le _)

/-- A point where a block ends, be it the end of the text: its end can be taken as read. -/
theorem finishes_of_close {i : Int} {outer : List Int} (hstart : Cursor.StartsToken p.rest)
    (houter : p.outer = i :: outer)
    (hclose : (p.column : Int) < p.indent ∨ p.rest = [] ∧ i ≤ p.column ∧ -1 < p.indent)
    (hq : (p.closed i outer).Finishes kinds?) :
    p.Finishes kinds? := by
  rintro s ⟨hopen, place, tokens, hfits, hsettle⟩
  have hfits' : (p.closed i outer).Fits place
      (.virtual .blockEnd place :: tokens) :=
    ⟨hfits.column, congrArg (_ :: ·) hfits.newest, by simpa [closed] using hfits.more⟩
  have hsame := @settle_state (p.closed i outer)
    place (.virtual .blockEnd place :: tokens) hstart
  refine .congr hopen hfits'.isOpen ?_ (hq _ ⟨hfits'.isOpen, place, _, hfits', hsame⟩)
  have hcolumn : (p.state place tokens).cursor.column = p.column := hfits.column
  rw [step_eq, step_eq, hsettle, hsame]
  dsimp only [Except.bind]
  by_cases hlt : (p.column : Int) < p.indent
  · have hlt' : ((p.state place tokens).cursor.column : Int) < (p.state place tokens).indent := by
      rw [hcolumn]
      exact hlt
    rw [unwind_cons rfl houter hlt']
    rfl
  · -- the block ends because the text does
    obtain ⟨hrest, hi, hindent⟩ := hclose.resolve_left hlt
    have hends : (p.state place tokens).unwind (-1) =
        ((p.closed i outer).state place (.virtual .blockEnd place :: tokens)).unwind (-1) :=
      unwind_cons rfl houter hindent
    rw [unwind_of_le, unwind_of_le, cut_of_isEmpty hrest, cut_of_isEmpty (p := p.closed i outer) hrest,
      streamEnd, streamEnd, hends]
    · exact hcolumn ▸ hi
    · rw [hcolumn]
      exact Int.not_lt.mp hlt

end Point

end DocDesk.Yaml
