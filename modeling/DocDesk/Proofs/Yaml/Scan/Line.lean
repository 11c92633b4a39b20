import DocDesk.Proofs.Yaml.Plain
import DocDesk.Proofs.Yaml.Scan.Sign

/-!
# Values and keys on a line

Scalars and empty containers up to the line break behind them, and keys up to their colon.

Main statements: `finishes_of_flow`, `finishes_of_scalar` and `finishes_of_simpleKey`.
-/

namespace DocDesk.Yaml

open TokenState

namespace Point

variable {p : Point} {kinds? : Option (List Token.Kind)} {place : Mark} {tokens : List Token} {k : Nat}
  {r : List Char}

/-- The keys that are pending behind a node that starts at the point. -/
def savedKeys (p : Point) (place : Mark) (tokens : List Token) : List PendingKey :=
  if p.keyAllowed then [⟨0, tokens.length, p.indent = p.column, place⟩] else []

/-- A place is kept for a key. -/
theorem saveKey_state (hfits : p.Fits place tokens) :
    (p.state place tokens).saveKey =
      .ok { p.state place tokens with pending := p.savedKeys place tokens } := by
  have hka : (p.state place tokens).keyAllowed = p.keyAllowed := rfl
  have hcolumn : (p.state place tokens).cursor.column = p.column := hfits.column
  rw [saveKey, hka, savedKeys]
  by_cases hallowed : p.keyAllowed = true
  · have hdrop : (p.state place tokens).dropKey = .ok (p.state place tokens) := rfl
    rw [if_pos hallowed, if_pos hallowed, hdrop]
    dsimp only [bind, Except.bind]
    rw [hcolumn]
    rfl
  · rw [if_neg hallowed, if_neg hallowed]
    rfl

/-- Behind a node that is indented the pending key is not required. -/
theorem of_mem_savedKeys (hindent : p.indent < p.column) {key : PendingKey}
    (h : key ∈ p.savedKeys place tokens) :
    key.depth = 0 ∧ key.required = false ∧ key.place = place := by
  rw [savedKeys] at h
  split at h
  · rw [List.mem_singleton.mp h]
    exact ⟨rfl, decide_eq_false (Int.ne_of_lt hindent), rfl⟩
  · cases h

/-! ## Empty containers -/

/-- The brackets and braces, with the kinds of their tokens. -/
def flowPairs : List (Char × Char × Token.Kind × Token.Kind) :=
  [('[', ']', .flowSequenceStart, .flowSequenceEnd), ('{', '}', .flowMappingStart, .flowMappingEnd)]

section Cut

variable {s : TokenState} {m : Mark} {t : List Char}

/-- An opening bracket or brace is cut off. -/
theorem cut_open {a b e : Char} {first last : Token.Kind} (h : (a, b, first, last) ∈ flowPairs)
    (hs : s.cursor = ⟨m, a :: e :: t⟩) : s.cut = s.openFlow first := by
  simp only [flowPairs, List.mem_cons, List.not_mem_nil, or_false, Prod.mk.injEq] at h
  rcases h with ⟨rfl, rfl, rfl, rfl⟩ | ⟨rfl, rfl, rfl, rfl⟩ <;>
    simp [cut, hs, isTriple_of_ne, Cursor.peek]

/-- So is a closing one. -/
theorem cut_close {a b e : Char} {first last : Token.Kind} (h : (a, b, first, last) ∈ flowPairs)
    (hs : s.cursor = ⟨m, b :: e :: t⟩) : s.cut = s.closeFlow last := by
  simp only [flowPairs, List.mem_cons, List.not_mem_nil, or_false, Prod.mk.injEq] at h
  rcases h with ⟨rfl, rfl, rfl, rfl⟩ | ⟨rfl, rfl, rfl, rfl⟩ <;>
    simp [cut, hs, isTriple_of_ne, Cursor.peek]

end Cut

/-- What holds of both kinds of bracket. -/
theorem of_mem_flowPairs {a b : Char} {first last : Token.Kind} (h : (a, b, first, last) ∈ flowPairs) :
    isRaw a = true ∧ (isRaw b = true ∧ b ≠ ' ' ∧ b ≠ '#' ∧ isBreak b = false) ∧
      first ≠ .streamEnd ∧ last ≠ .streamEnd := by
  simp only [flowPairs, List.mem_cons, List.not_mem_nil, or_false, Prod.mk.injEq] at h
  rcases h with ⟨rfl, rfl, rfl, rfl⟩ | ⟨rfl, rfl, rfl, rfl⟩ <;> decide

/-- The point on the next line, behind tokens of given kinds, newest first. -/
def below (p : Point) (newest : List Token.Kind) (k : Nat) (r : List Char) : Point :=
  ⟨r, k, p.indent, p.outer, true, newest ++ p.newest⟩

/-- The keys pending within brackets whose inside is on one line are given up with the line. -/
theorem exists_shows_below {s : TokenState} (newest : List Token.Kind) {m : Mark}
    (hdepth : s.depth = 0) (hindent : s.indent = p.indent) (houter : s.outer = p.outer)
    (hcursor : s.cursor = ⟨m, (Space.line k).text ++ r⟩) (hr : Cursor.StartsToken r)
    (hkinds : s.newest.map Token.kind = newest ++ p.newest)
    (hmore : Token.Kind.streamEnd ∉ newest ++ p.newest)
    (hpending : ∀ key ∈ s.pending, key.required = false ∧ key.place.line ≤ m.line) :
    ∃ n, s.dropStale = .ok n ∧ n.Shows (p.below newest k r) := by
  have hline : m.pass (Space.line k).text = ⟨m.index + 1 + k, m.line + 1, k⟩ := Mark.pass_break_blanks rfl k
  refine exists_shows (m.pass (Space.line k).text) ⟨?_, hkinds, hmore⟩ (fun ps => ?_)
    fun key hkey => ⟨(hpending key hkey).1, ?_⟩
  · rw [hline]
    rfl
  · rw [Space.approach (s := { s with pending := ps }) hcursor hdepth hr, state, below, hline]
    simp only [hdepth, hindent, houter]
    rfl
  · rw [hline]
    exact Nat.lt_succ_of_le (hpending key hkey).2

/-- Behind the closing bracket of an empty container the line ends. -/
theorem exists_step_close {a b : Char} {first last : Token.Kind} (hpair : (a, b, first, last) ∈ flowPairs)
    {n : TokenState} {m : Mark} (hcursor : n.cursor = ⟨m, b :: ((Space.line k).text ++ r)⟩)
    (hdepth : n.depth = 1) (hindent : n.indent = p.indent) (houter : n.outer = p.outer)
    (hnewest : n.newest.map Token.kind = first :: p.newest) (hmore : Token.Kind.streamEnd ∉ p.newest)
    (hpending : ∀ key ∈ n.pending, key.depth = 0 ∧ key.required = false ∧ key.place.line ≤ m.line)
    (hr : Cursor.StartsToken r) :
    ∃ n', n.step = .ok n' ∧ n'.Shows (p.below [last, first] k r) := by
  obtain ⟨-, hclose, hfirst, hlast⟩ := of_mem_flowPairs hpair
  have happroach : n.approach = n := by
    refine approach_self ?_
    rw [hcursor]
    exact Cursor.startsToken_cons hclose _
  -- the keys that are pending here are those of the line outside the brackets, and none is required
  have hsettle := dropStale_eq (s := n) fun key hkey => (hpending key hkey).2.1
  generalize hps : n.pending.filter (fun key => !isStale n.cursor.place key) = ps at hsettle
  have hkeys : ∀ key ∈ ps, key.required = false ∧ key.place.line ≤ m.line := by
    intro key hkey
    rw [← hps] at hkey
    exact (hpending key (List.mem_filter.mp hkey).1).2
  have hunwind : ({ n with pending := ps } : TokenState).unwind n.cursor.column =
      { n with pending := ps } := by
    rw [unwind, closeBlocks.eq_def]
    exact if_pos (.inl (by rw [hdepth]; decide))
  have hcut : ({ n with pending := ps } : TokenState).cut = .ok
      { ({ n with pending := ps.filter fun key => key.depth ≠ n.depth } : TokenState).pushNext last 1 with
        depth := n.depth - 1, keyAllowed := false } := by
    have hdrop : (ps.find? fun key => key.depth = n.depth && key.required) = none := by
      rw [List.find?_eq_none]
      intro key hkey
      simp [(hkeys key hkey).1]
    rw [cut_close (s := { n with pending := ps }) hpair hcursor, closeFlow, dropKey]
    dsimp only
    rw [hdrop]
    rfl
  have hnext : n.cursor.forward 1 = ⟨m.pass [b], (Space.line k).text ++ r⟩ := by
    rw [hcursor]
    exact Cursor.advance_cons hclose.1
  have hmark : m.pass [b] = ⟨m.index + 1, m.line, m.column + 1⟩ :=
    Mark.pass_of_no_break (by simpa [Raw] using hclose.1) (by simpa using hclose.2.2.2)
  obtain ⟨n', hn', hshows⟩ := exists_shows_below (p := p) [last, first] (m := m.pass [b])
    (s := { ({ n with pending := ps.filter fun key => key.depth ≠ n.depth } : TokenState).pushNext last 1
      with depth := n.depth - 1, keyAllowed := false })
    (by rw [hdepth]) hindent houter hnext hr (congrArg (last :: ·) hnewest)
    (by simpa [Ne.symm hfirst, Ne.symm hlast] using hmore) fun key hkey => by
      obtain ⟨hrequired, hline⟩ := hkeys key (List.mem_filter.mp hkey).1
      exact ⟨hrequired, by rw [hmark]; exact hline⟩
  exact ⟨n', (step_of_settle (by rw [settle, happroach, hsettle]) hunwind hcut).trans hn', hshows⟩

/-- An empty container. -/
theorem finishes_of_flow {a b : Char} {first last : Token.Kind} (hpair : (a, b, first, last) ∈ flowPairs)
    (hrest : p.rest = a :: b :: ((Space.line k).text ++ r)) (hr : Cursor.StartsToken r)
    (hindent : p.indent < p.column) (hq : (p.below [last, first] k r).Finishes kinds?) :
    p.Finishes kinds? := by
  obtain ⟨hopen, hclose, hfirst, -⟩ := of_mem_flowPairs hpair
  refine finishes_of_cut (Int.le_of_lt hindent) fun place tokens hfits => ?_
  have hcursor : (p.state place tokens).cursor = ⟨place, a :: b :: ((Space.line k).text ++ r)⟩ := by
    rw [state, hrest]
  have hfree : ∀ key ∈ p.savedKeys place tokens, key.depth = 0 ∧ key.required = false ∧ key.place = place :=
    fun key hkey => of_mem_savedKeys hindent hkey
  have hcut : (p.state place tokens).cut = .ok
      { ({ p.state place tokens with pending := p.savedKeys place tokens } : TokenState).pushNext first 1
        with depth := 1, keyAllowed := true } := by
    rw [cut_open hpair hcursor, openFlow, saveKey_state hfits]
    rfl
  have hnext : (p.state place tokens).cursor.forward 1 =
      ⟨place.pass [a], b :: ((Space.line k).text ++ r)⟩ := by
    rw [hcursor]
    exact Cursor.advance_cons hopen
  have hmark : place.line ≤ (place.pass [a]).line := Mark.line_le_pass
  refine ⟨_, _, hcut, dropStale_eq fun key hkey => (hfree key hkey).2.1, ?_⟩
  obtain ⟨keys, hkeys⟩ : ∃ keys, keys = (p.savedKeys place tokens).filter
      (fun key => !isStale ((p.state place tokens).cursor.forward 1).place key) := ⟨_, rfl⟩
  obtain ⟨n, hstep, hshows⟩ := exists_step_close (p := p) (k := k) (r := r) hpair (n :=
      { ({ p.state place tokens with pending := keys } : TokenState).pushNext first 1 with
        depth := 1, keyAllowed := true })
    hnext rfl rfl rfl (congrArg (first :: ·) hfits.newest) hfits.more
    (fun key hkey => by
      obtain ⟨hdepth, hrequired, hplace⟩ := hfree key (List.mem_filter.mp (hkeys ▸ hkey)).1
      exact ⟨hdepth, hrequired, by rw [hplace]; exact hmark⟩) hr
  rw [hkeys] at hstep
  refine (Ends.of_step ?_ hstep (hq n hshows)).mono ?_
  · exact hfits.isOpen_cons (t := ⟨first, place, _⟩) hfirst rfl
  · have hr : (p.below [last, first] k r).rest = r := rfl
    rw [hrest, hr]
    simp only [Space.text, List.length_cons, List.length_append]
    omega

/-! ## Scalars -/

section Cut

variable {s : TokenState} {m : Mark} {t : List Char}

/-- Another character does not start three that are equal. -/
theorem isTriple_of_head_ne {a ch : Char} (h : a ≠ ch) : (⟨m, a :: t⟩ : Cursor).isTriple ch = false := by
  unfold Cursor.isTriple
  split
  · next heq =>
    cases heq
    simp [h]
  · rfl

/-- A quote starts a quoted scalar. -/
theorem cut_quoted {double : Bool} (hs : s.cursor = ⟨m, (if double then '"' else '\'') :: t⟩) :
    s.cut = s.quotedScalar double := by
  cases double <;> simp at hs <;> simp [cut, hs, isTriple_of_head_ne, Cursor.peek]

/-- No mark of a document stands where a plain text starts, if nothing that could belong to one follows. -/
theorem isTriple_of_startsDocument {cs : List Char} {ch : Char} (h : Style.startsDocument cs = false)
    (hch : ch = '-' ∨ ch = '.') (ht : ∀ c ∈ t.head?, c ≠ ch) (hne : cs ≠ []) :
    (⟨m, cs ++ t⟩ : Cursor).isTriple ch = false := by
  match cs, hne with
  | [a], _ =>
    cases t with
    | nil => rfl
    | cons b t => exact isTriple_of_ne (.inr (ht b rfl))
  | [a, b], _ =>
    rw [List.cons_append, List.cons_append, List.nil_append]
    cases t with
    | nil => rfl
    | cons d t =>
      have hd : d ≠ ch := ht d rfl
      simp [Cursor.isTriple, hd]
  | a :: b :: d :: r, _ =>
    refine Bool.and_eq_false_iff.mpr (.inl (Bool.eq_false_iff.mpr fun hsame => ?_))
    simp only [Bool.and_eq_true, decide_eq_true_eq] at hsame
    obtain ⟨⟨rfl, rfl⟩, rfl⟩ := hsame
    rcases hch with rfl | rfl <;> cases h

/-- A text of plain style starts a plain scalar. -/
theorem cut_plain {cs : List Char} (hsafe : Style.PlainSafe cs) (hne : cs ≠ [])
    (hs : s.cursor = ⟨m, cs ++ t⟩) (hdepth : s.depth = 0) (ht : ∀ c ∈ t.head?, c ≠ '-' ∧ c ≠ '.') :
    s.cut = s.plainScalar := by
  have htriple : ∀ ch, ch = '-' ∨ ch = '.' → (⟨m, cs ++ t⟩ : Cursor).isTriple ch = false := by
    intro ch hch
    refine isTriple_of_startsDocument hsafe.document hch (fun c hc => ?_) hne
    rcases hch with rfl | rfl
    · exact (ht c hc).1
    · exact (ht c hc).2
  obtain ⟨c, r, rfl⟩ := List.exists_cons_of_ne_nil hne
  have hleading := hsafe.notMem_leading
  simp only [Style.leadingIndicators, List.mem_cons, List.not_mem_nil, or_false, not_or] at hleading
  by_cases hsign : c = '?' ∨ c = ':' ∨ c = '-'
  · -- a sign that a character of the text follows
    have hfollows := hsafe.blankFollows hsign
    obtain ⟨d, r, rfl⟩ : ∃ d r', r = d :: r' := by
      refine List.exists_cons_of_ne_nil ?_
      rintro rfl
      cases hfollows
    have hd : isBlankOrBreak d = false := hfollows
    simp only [List.cons_append] at hs htriple
    rcases hsign with rfl | rfl | rfl <;>
      simp [cut, startsPlain, isIndicator, hs, hdepth, htriple, Cursor.peek, Cursor.peekAt, hd]
  · simp only [not_or] at hsign
    have hblank : isBlankOrBreak c = false := by
      have hfirst : c ≠ ' ' := by simpa using hsafe.first
      rw [isBlankOrBreak_of_isRaw (hsafe.raw c List.mem_cons_self), hsafe.noBreak c List.mem_cons_self]
      simpa using hfirst
    simp only [List.cons_append] at hs htriple
    simp [cut, startsPlain, isIndicator, hs, htriple, Cursor.peek, hblank, hsign, hleading]

end Cut

/-- The characters are those of a scalar: a text of plain style, or a text between quotes. -/
inductive Spells (text : List Char) : Token.Kind → Prop
  | plain (hsafe : Style.PlainSafe text) (hne : text ≠ []) : Spells text (.scalar text true)
  | quoted (double : Bool) (cs : List Char) (hopen : ∃ t, text = (if double then '"' else '\'') :: t)
      (hraw : Raw text)
      (hread : ∀ m r, r.head? ≠ some '\'' → quotedToken double ⟨m, text ++ r⟩ =
        .ok (⟨.scalar cs false, m, m.pass text⟩, ⟨m.pass text, r⟩)) : Spells text (.scalar cs false)

namespace Spells

variable {text : List Char} {kind : Token.Kind}

/-- What spells a token may stand as it is. -/
theorem raw (h : Spells text kind) : Raw text := by
  cases h with
  | plain hsafe hne => exact hsafe.raw
  | quoted double cs hopen hraw hread => exact hraw

/-- It is not the end of the stream. -/
theorem ne_streamEnd (h : Spells text kind) : kind ≠ .streamEnd := by
  cases h <;> nofun

/-- A scalar starts where a token may. -/
theorem startsToken (h : Spells text kind) (t : List Char) : Cursor.StartsToken (text ++ t) := by
  cases h with
  | plain hsafe hne =>
    obtain ⟨c, r, rfl⟩ := List.exists_cons_of_ne_nil hne
    refine Cursor.startsToken_cons ⟨hsafe.raw c List.mem_cons_self, by simpa using hsafe.first, ?_,
      hsafe.noBreak c List.mem_cons_self⟩ _
    rintro rfl
    exact hsafe.notMem_leading (by decide)
  | quoted double cs hopen hraw hread =>
    obtain ⟨u, rfl⟩ := hopen
    refine Cursor.startsToken_cons ?_ _
    cases double <;> decide

end Spells

/-- What ends a plain scalar on the next line: a smaller indentation, or the mark of a document. -/
def EndsPlain (indent : Int) (k : Nat) (r : List Char) : Prop :=
  ((∀ m, (⟨m, List.replicate k ' ' ++ r⟩ : Cursor).atSeparator = false) ∧ (k : Int) ≤ indent) ∨
    (k = 0 ∧ ∀ m, (⟨m, r⟩ : Cursor).atSeparator = true)

/-- The state behind a scalar that starts at a point. -/
def behind (p : Point) (place : Mark) (tokens : List Token) (text : List Char) (kind : Token.Kind)
    (passed : Bool) (next : Cursor) : TokenState :=
  { ({ p.state place tokens with pending := p.savedKeys place tokens } : TokenState).push
      ⟨kind, place, place.pass text⟩ with keyAllowed := passed, cursor := next }

section Scalar

variable {text t : List Char} {kind : Token.Kind}

/-- A quoted text is cut off. -/
theorem cut_spells_quoted {double : Bool} {cs : List Char} (hfits : p.Fits place tokens)
    (hopen : ∃ t, text = (if double then '"' else '\'') :: t)
    (hread : ∀ m r, r.head? ≠ some '\'' → quotedToken double ⟨m, text ++ r⟩ =
      .ok (⟨.scalar cs false, m, m.pass text⟩, ⟨m.pass text, r⟩))
    (hrest : p.rest = text ++ t) (ht : t.head? ≠ some '\'') :
    (p.state place tokens).cut =
      .ok (p.behind place tokens text (.scalar cs false) false ⟨place.pass text, t⟩) := by
  obtain ⟨u, hu⟩ := hopen
  have hcursor : (p.state place tokens).cursor =
      ⟨place, (if double then '"' else '\'') :: (u ++ t)⟩ := by
    rw [state, hrest, hu, List.cons_append]
  have htext : (p.state place tokens).cursor = ⟨place, text ++ t⟩ := by
    rw [state, hrest]
  rw [cut_quoted hcursor, quotedScalar, saveKey_state hfits]
  dsimp only [bind, Except.bind]
  rw [htext, hread place t ht]
  rfl

/-- A plain text is cut off with the gap behind it. -/
theorem cut_spells_plain {more : List Char} {passed : Bool} {next : Cursor}
    (hfits : p.Fits place tokens) (hsafe : Style.PlainSafe text) (hne : text ≠ [])
    (hrest : p.rest = text ++ t) (hindent : p.indent ≤ p.column)
    (ht : ∀ c ∈ t.head?, c ≠ '-' ∧ c ≠ '.') (hstop : Plain.run false t = [])
    (hgap : Plain.gap ⟨place.pass text, t⟩ = (more, passed, next))
    (hend : more = [] ∨ next.peek = '#' ∨ (next.column : Int) < p.indent + 1) :
    (p.state place tokens).cut = .ok (p.behind place tokens text (.scalar text true) passed next) := by
  have htext : (p.state place tokens).cursor = ⟨place, text ++ t⟩ := by
    rw [state, hrest]
  have hcolumn : p.indent + 1 ≤ (place.column : Int) + 1 := by
    rw [hfits.column]
    omega
  rw [cut_plain hsafe hne htext rfl ht, plainScalar, saveKey_state hfits]
  dsimp only [bind, Except.bind]
  have hread := plainToken_eq hne hsafe hcolumn hstop hgap hend
  have hstate : plainToken ((p.state place tokens).depth ≠ 0) ((p.state place tokens).indent + 1)
      (p.state place tokens).cursor = (⟨.scalar text true, place, place.pass text⟩, passed, next) := by
    rw [htext]
    exact hread
  rw [hstate]
  rfl

/-- A colon behind a key ends it. -/
theorem cut_spells_key {e : Char} (hfits : p.Fits place tokens) (hspells : Spells text kind)
    (hrest : p.rest = text ++ ':' :: e :: t) (he : e = ' ' ∨ e = '\n') (hindent : p.indent ≤ p.column) :
    (p.state place tokens).cut =
      .ok (p.behind place tokens text kind false ⟨place.pass text, ':' :: e :: t⟩) := by
  cases hspells with
  | plain hsafe hne =>
    have hfollows : Style.blankFollows (e :: t) = true := by
      rcases he with rfl | rfl <;> rfl
    exact cut_spells_plain hfits hsafe hne hrest hindent (by simp) (Plain.run_colon hfollows)
      Plain.gap_colon (.inl rfl)
  | quoted double cs hopen hraw hread => exact cut_spells_quoted hfits hopen hread hrest (by simp)

/-- Behind a scalar at the end of a line the state comes to the next line. -/
theorem exists_cut_spells_line (hfits : p.Fits place tokens) (hspells : Spells text kind)
    (hrest : p.rest = text ++ ((Space.line k).text ++ r)) (hr : Cursor.StartsToken r)
    (hindent : p.indent ≤ p.column) (hend : (∃ cs, kind = .scalar cs true) → EndsPlain p.indent k r) :
    ∃ passed next, (p.state place tokens).cut = .ok (p.behind place tokens text kind passed next) ∧
      ∀ ps, ({ p.behind place tokens text kind passed next with pending := ps } : TokenState).approach =
        { (p.below [kind] k r).state ((place.pass text).pass (Space.line k).text)
          (⟨kind, place, place.pass text⟩ :: tokens) with pending := ps } := by
  cases hspells with
  | plain hsafe hne =>
    rcases hend ⟨text, rfl⟩ with ⟨hseparator, hle⟩ | ⟨rfl, hseparator⟩
    · refine ⟨true, _, cut_spells_plain hfits hsafe hne hrest hindent (by simp [Space.text])
        (Plain.run_break false) (Plain.gap_break hr hseparator) (.inr (.inr ?_)), fun ps => ?_⟩
      · have hcolumn := Space.column_pass (.line k) (place.pass text)
        rw [Cursor.column]
        exact hcolumn ▸ Int.lt_add_one_of_le hle
      · rw [approach_blanks (k := 0) rfl hr]
        rfl
    · refine ⟨true, _, cut_spells_plain hfits hsafe hne hrest hindent (by simp [Space.text])
        (Plain.run_break false) (Plain.gap_separator hseparator) (.inl rfl), fun ps => ?_⟩
      rw [approach_blanks (k := 0) rfl hr]
      rfl
  | quoted double cs hopen hraw hread =>
    refine ⟨false, _, cut_spells_quoted hfits hopen hread hrest (by simp [Space.text]), fun ps => ?_⟩
    rw [Space.approach rfl rfl hr]
    rfl

/-- A scalar at the end of a line. -/
theorem finishes_of_scalar (hspells : Spells text kind)
    (hrest : p.rest = text ++ ((Space.line k).text ++ r)) (hr : Cursor.StartsToken r)
    (hindent : p.indent < p.column) (hend : (∃ cs, kind = .scalar cs true) → EndsPlain p.indent k r)
    (hq : (p.below [kind] k r).Finishes kinds?) : p.Finishes kinds? := by
  have hlength : (p.below [kind] k r).rest.length < p.rest.length := by
    have hr : (p.below [kind] k r).rest = r := rfl
    rw [hrest, hr]
    simp only [Space.text, List.length_append, List.length_cons]
    omega
  refine finishes_of_next (Int.le_of_lt hindent) hlength (fun place tokens hfits => ?_) hq
  obtain ⟨passed, next, hcut, happroach⟩ :=
    exists_cut_spells_line hfits hspells hrest hr (Int.le_of_lt hindent) hend
  have hpass := Mark.pass_break_blanks (m := place.pass text) (c := '\n') rfl k
  have hline : place.line ≤ (place.pass text).line := Mark.line_le_pass
  obtain ⟨n, hn, hshows⟩ := exists_shows (p := p.below [kind] k r)
    ((place.pass text).pass (Space.line k).text)
    (s := p.behind place tokens text kind passed next)
    ⟨Space.column_pass (.line k) _, congrArg (kind :: ·) hfits.newest,
      List.not_mem_cons_of_ne_of_not_mem (Ne.symm hspells.ne_streamEnd) hfits.more⟩ happroach
    fun key hkey => by
      obtain ⟨-, hrequired, hplace⟩ := of_mem_savedKeys hindent hkey
      refine ⟨hrequired, ?_⟩
      rw [hplace, Space.text, hpass]
      exact Nat.lt_succ_of_le hline
  exact ⟨_, n, hcut, hn, hshows⟩

end Scalar

/-! ## Keys -/

/-- A token goes in before those that came later. -/
theorem insertBefore_append (u newest : List Token) (t : Token) :
    insertBefore newest.length t (u ++ newest) = u ++ t :: newest := by
  have hlater : (u ++ newest).length - newest.length = u.length := by simp
  rw [insertBefore, hlater, List.take_left, List.drop_left]

/-- A key that is found opens a block if it stands deeper than the block around it. -/
theorem settleKey_eq {s : TokenState} {key : PendingKey} (hdepth : s.depth = 0)
    (hpending : s.pending = [key]) (hkey : key.depth = 0) :
    s.settleKey key =
      if s.indent < key.place.column then
        { s with
          pending := []
          newest := insertBefore key.number (.virtual .blockMappingStart key.place)
            (insertBefore key.number (.virtual .key key.place) s.newest)
          indent := key.place.column
          outer := s.indent :: s.outer }
      else
        { s with
          pending := []
          newest := insertBefore key.number (.virtual .key key.place) s.newest } := by
  -- the one pending key is used up
  have hfilter : s.pending.filter (fun p => p.depth ≠ s.depth) = [] := by
    rw [hpending, hdepth, List.filter_cons_of_neg (by simp [hkey]), List.filter_nil]
  have hopens : ∀ newest, (decide (s.depth = 0) &&
      ({ s with pending := [], newest := newest } : TokenState).opensBlock key.place.column) =
        decide (s.indent < key.place.column) := by
    intro newest
    rw [hdepth]
    rfl
  rw [settleKey]
  dsimp only
  rw [hfilter, hopens]
  by_cases hopen : s.indent < key.place.column
  · rw [if_pos hopen, if_pos (decide_eq_true hopen)]
    rfl
  · rw [if_neg hopen, if_neg (by simpa using hopen)]

section Key

variable {text : List Char} {kind : Token.Kind} {sp : Space}

/-- The point behind a key on a line of its own, and its colon. -/
def pastKey (p : Point) (kind : Token.Kind) (length : Nat) (sp : Space) (r : List Char) : Point :=
  let q := p.opened .blockMappingStart
  ⟨r, sp.column (p.column + (length + 1)), q.indent, q.outer, sp.allows false,
    .value :: kind :: .key :: q.newest⟩

/-- The pending key behind a node that starts at the point. -/
def pendingKey (p : Point) (place : Mark) (tokens : List Token) : PendingKey :=
  ⟨0, tokens.length, p.indent = p.column, place⟩

/-- At the colon the pending key becomes the key of a member, of a mapping that opens where needed. -/
theorem exists_settleKey (text : List Char) (kind : Token.Kind) (hfits : p.Fits place tokens)
    (hallowed : p.keyAllowed = true) (next : Cursor) :
    ∃ more, more.map Token.kind = kind :: .key :: (p.opened .blockMappingStart).newest ∧
      (p.behind place tokens text kind false next).settleKey (p.pendingKey place tokens) =
        ⟨next, more, 0, (p.opened .blockMappingStart).indent, (p.opened .blockMappingStart).outer, false,
          []⟩ := by
  have hcolumn : (p.pendingKey place tokens).place.column = p.column := hfits.column
  have hkeys : (p.behind place tokens text kind false next).pending = [p.pendingKey place tokens] :=
    if_pos hallowed
  -- the node was pushed already, so the marks of its key go in front of it, and that of the mapping
  -- in front of those
  have hone := insertBefore_append [⟨kind, place, place.pass text⟩] tokens (.virtual .key place)
  have htwo := (congrArg (insertBefore tokens.length (.virtual .blockMappingStart place)) hone).trans
    (insertBefore_append [⟨kind, place, place.pass text⟩, .virtual .key place] tokens
      (.virtual .blockMappingStart place))
  have hsettle := settleKey_eq (s := p.behind place tokens text kind false next) rfl hkeys
    rfl
  rw [hcolumn] at hsettle
  by_cases hopen : p.indent < p.column
  · refine ⟨⟨kind, place, place.pass text⟩ :: .virtual .key place :: .virtual .blockMappingStart place ::
      tokens, ?_, hsettle.trans ?_⟩
    · rw [opened, if_pos hopen, ← hfits.newest]
      rfl
    · refine (if_pos hopen).trans ?_
      rw [opened, if_pos hopen]
      exact congrArg (fun newest => (⟨next, newest, 0, p.column, p.indent :: p.outer, false, []⟩ :
        TokenState)) htwo
  · refine ⟨⟨kind, place, place.pass text⟩ :: .virtual .key place :: tokens, ?_, hsettle.trans ?_⟩
    · rw [opened, if_neg hopen, ← hfits.newest]
      rfl
    · refine (if_neg hopen).trans ?_
      rw [opened, if_neg hopen]
      exact congrArg (fun newest => (⟨next, newest, 0, p.indent, p.outer, false, []⟩ : TokenState)) hone

/-- The one key that may be pending behind a node is its own. -/
theorem eq_of_mem_savedKeys {key : PendingKey} (h : key ∈ p.savedKeys place tokens) :
    key = p.pendingKey place tokens := by
  rw [savedKeys] at h
  split at h
  · exact List.mem_singleton.mp h
  · cases h

/-- On its line a pending key is one as far as keys reach. -/
theorem isStale_pendingKey (htext : ∀ c ∈ text, isRaw c = true ∧ isBreak c = false) :
    isStale (place.pass text) (p.pendingKey place tokens) = decide (keyReach < text.length) := by
  have hpass : place.pass text = ⟨place.index + text.length, place.line, place.column + text.length⟩ :=
    Mark.pass_of_no_break (fun c hc => (htext c hc).1) fun c hc => (htext c hc).2
  have hline : decide ((p.pendingKey place tokens).place.line ≠ (place.pass text).line) = false := by
    rw [hpass]
    exact decide_eq_false (not_not_intro rfl)
  have hreach : (place.pass text).index - (p.pendingKey place tokens).place.index = text.length := by
    rw [hpass]
    exact Nat.add_sub_cancel_left _ _
  rw [isStale, hline, hreach, Bool.false_or]

/-- On its line a pending key is still one, if the line is not too long. -/
theorem dropStale_behind (htext : ∀ c ∈ text, isRaw c = true ∧ isBreak c = false)
    (hshort : text.length ≤ keyReach) {t : List Char} :
    (p.behind place tokens text kind false ⟨place.pass text, t⟩).dropStale =
      .ok (p.behind place tokens text kind false ⟨place.pass text, t⟩) := by
  refine dropStale_of_fresh fun key hkey => ?_
  rw [eq_of_mem_savedKeys hkey]
  exact (isStale_pendingKey htext).trans (decide_eq_false (Nat.not_lt.mpr hshort))

/-- Behind a short text nothing is dropped. -/
theorem settle_behind (htext : ∀ c ∈ text, isRaw c = true ∧ isBreak c = false)
    (hshort : text.length ≤ keyReach) {t : List Char} (ht : Cursor.StartsToken t) :
    (p.behind place tokens text kind false ⟨place.pass text, t⟩).settle =
      .ok (p.behind place tokens text kind false ⟨place.pass text, t⟩) := by
  rw [settle, approach_self ht, dropStale_behind htext hshort]

/-- A pending key is what a colon is taken for. -/
theorem value_behind (hallowed : p.keyAllowed = true) {next : Cursor} :
    (p.behind place tokens text kind false next).value =
      .ok { ((p.behind place tokens text kind false next).settleKey
        (p.pendingKey place tokens)).pushNext .value 1 with keyAllowed := false } := by
  have hkeys : (p.behind place tokens text kind false next).pending = [p.pendingKey place tokens] :=
    if_pos hallowed
  have hfind : ((p.behind place tokens text kind false next).pending.find? fun key =>
      key.depth = (p.behind place tokens text kind false next).depth) =
        some (p.pendingKey place tokens) := by
    rw [hkeys]
    rfl
  rw [value, hfind]

/-- Behind a key no block ends. -/
theorem unwind_behind (hfits : p.Fits place tokens)
    (htext : ∀ c ∈ text, isRaw c = true ∧ isBreak c = false) (hindent : p.indent ≤ p.column)
    {t : List Char} :
    (p.behind place tokens text kind false ⟨place.pass text, t⟩).unwind (place.pass text).column =
      p.behind place tokens text kind false ⟨place.pass text, t⟩ := by
  refine unwind_of_le ?_
  rw [hfits.column_pass htext]
  show p.indent ≤ _
  omega

/-- The colon behind a pending key. -/
theorem exists_step_key (sp : Space) (hfits : p.Fits place tokens) (hallowed : p.keyAllowed = true)
    (hkind : kind ≠ .streamEnd) (htext : ∀ c ∈ text, isRaw c = true ∧ isBreak c = false)
    (hshort : text.length ≤ keyReach) (hindent : p.indent ≤ p.column) (hr : Cursor.StartsToken r) :
    ∃ n, (p.behind place tokens text kind false ⟨place.pass text, ':' :: (sp.text ++ r)⟩).step = .ok n ∧
      n.Shows (p.pastKey kind text.length sp r) := by
  obtain ⟨more, hmore, hkey⟩ := exists_settleKey text kind hfits hallowed
    ⟨place.pass text, ':' :: (sp.text ++ r)⟩
  have hsettle := @settle_behind p place tokens text kind htext hshort _
    (Cursor.startsToken_cons (c := ':') (by decide) (sp.text ++ r))
  have hcut : (p.behind place tokens text kind false ⟨place.pass text, ':' :: (sp.text ++ r)⟩).cut =
      .ok { (⟨⟨place.pass text, ':' :: (sp.text ++ r)⟩, more, 0, (p.opened .blockMappingStart).indent,
        (p.opened .blockMappingStart).outer, false, []⟩ : TokenState).pushNext .value 1 with
          keyAllowed := false } := by
    obtain ⟨e, t, hsp, he⟩ := sp.exists_text
    rw [← hkey]
    refine (cut_value (m := place.pass text) (e := e) (t := t ++ r) ?_ he).trans (value_behind hallowed)
    show (⟨place.pass text, ':' :: (sp.text ++ r)⟩ : Cursor) = _
    rw [hsp, List.cons_append]
  have hnext : (⟨place.pass text, ':' :: (sp.text ++ r)⟩ : Cursor).forward 1 =
      ⟨place.pass (text ++ [':']), sp.text ++ r⟩ := by
    rw [Mark.pass_append]
    exact Cursor.advance_cons (by decide)
  have hcolumn : (place.pass (text ++ [':'])).column = p.column + (text.length + 1) := by
    rw [hfits.column_pass, List.length_append, List.length_singleton]
    exact List.forall_mem_append.mpr ⟨htext, List.forall_mem_singleton.mpr (by decide)⟩
  have hnewest : (p.pastKey kind text.length sp r).newest =
      .value :: kind :: .key :: (p.opened .blockMappingStart).newest := rfl
  obtain ⟨n, hn, hshows⟩ := exists_shows (p := p.pastKey kind text.length sp r)
    ((place.pass (text ++ [':'])).pass sp.text)
    (s := { (⟨⟨place.pass text, ':' :: (sp.text ++ r)⟩, more, 0, (p.opened .blockMappingStart).indent,
      (p.opened .blockMappingStart).outer, false, []⟩ : TokenState).pushNext .value 1 with
        keyAllowed := false })
    ⟨by rw [Space.column_pass, hcolumn]; rfl, congrArg (List.cons Token.Kind.value) hmore, by
      rw [hnewest]
      simpa [Ne.symm hkind] using hfits.notMem_opened .blockMappingStart (by decide)⟩
    (fun ps => by rw [Space.approach hnext rfl hr]; rfl) fun _ hkey => absurd hkey List.not_mem_nil
  exact ⟨n, (step_of_settle hsettle (unwind_behind hfits htext hindent) hcut).trans hn, hshows⟩

/-- A key on a line of its own, with its colon. -/
theorem finishes_of_simpleKey (sp : Space) (hspells : Spells text kind)
    (hbreak : ∀ c ∈ text, isBreak c = false) (hshort : text.length ≤ keyReach)
    (hrest : p.rest = text ++ ':' :: (sp.text ++ r))
    (hr : Cursor.StartsToken r) (hallowed : p.keyAllowed = true) (hindent : p.indent ≤ p.column)
    (hq : (p.pastKey kind text.length sp r).Finishes kinds?) : p.Finishes kinds? := by
  refine finishes_of_cut hindent fun place tokens hfits => ?_
  have htext : ∀ c ∈ text, isRaw c = true ∧ isBreak c = false := fun c hc =>
    ⟨hspells.raw c hc, hbreak c hc⟩
  obtain ⟨e, t, hsp, he⟩ := sp.exists_text
  have hcut := cut_spells_key (t := t ++ r) hfits hspells (by rw [hrest, hsp]; rfl) he hindent
  obtain ⟨n, hstep, hshows⟩ := exists_step_key sp hfits hallowed hspells.ne_streamEnd htext hshort
    hindent hr
  rw [hsp] at hstep
  refine ⟨_, _, hcut, ?_, (Ends.of_step ?_ hstep (hq n hshows)).mono ?_⟩
  · exact dropStale_behind htext hshort
  · exact hfits.isOpen_cons (t := ⟨kind, place, _⟩) hspells.ne_streamEnd rfl
  · have hr : (p.pastKey kind text.length sp r).rest = r := rfl
    rw [hrest, hr, List.length_append, List.length_cons, List.length_append, hsp, List.length_cons]
    omega

/-- A key that is required is missed once its line is too long. -/
theorem dropStale_required (htext : ∀ c ∈ text, isRaw c = true ∧ isBreak c = false)
    (hlong : keyReach < text.length) (hallowed : p.keyAllowed = true) (hindent : p.indent = p.column)
    {t : List Char} :
    ∃ f, (p.behind place tokens text kind false ⟨place.pass text, t⟩).dropStale = .error f := by
  have hkeys : (p.behind place tokens text kind false ⟨place.pass text, t⟩).pending =
      [p.pendingKey place tokens] := if_pos hallowed
  have hrequired : (p.pendingKey place tokens).required = true := decide_eq_true hindent
  have hstale : isStale (place.pass text) (p.pendingKey place tokens) = true :=
    (isStale_pendingKey htext).trans (decide_eq_true hlong)
  have hfind : ((p.behind place tokens text kind false ⟨place.pass text, t⟩).pending.find? fun k =>
      isStale (place.pass text) k && k.required) = some (p.pendingKey place tokens) := by
    rw [hkeys, List.find?_cons_of_pos (by rw [hstale, hrequired]; rfl)]
  have hhere : (p.behind place tokens text kind false ⟨place.pass text, t⟩).cursor.place =
      place.pass text := rfl
  rw [dropStale, hhere, hfind]
  exact ⟨_, rfl⟩

/-- A key that is not required is given up once its line is too long. -/
theorem dropStale_long (htext : ∀ c ∈ text, isRaw c = true ∧ isBreak c = false)
    (hlong : keyReach < text.length) (hindent : p.indent < p.column) {t : List Char} :
    (p.behind place tokens text kind false ⟨place.pass text, t⟩).dropStale =
      .ok { p.behind place tokens text kind false ⟨place.pass text, t⟩ with pending := [] } := by
  have hstale : isStale (place.pass text) (p.pendingKey place tokens) = true :=
    (isStale_pendingKey htext).trans (decide_eq_true hlong)
  have hnone : ((p.behind place tokens text kind false ⟨place.pass text, t⟩).pending.filter fun k =>
      !isStale (place.pass text) k) = [] := by
    rw [List.filter_eq_nil_iff]
    intro key hkey
    rw [eq_of_mem_savedKeys hkey, hstale]
    decide
  rw [dropStale_eq fun key hkey => (of_mem_savedKeys hindent hkey).2.1]
  exact congrArg (fun ps => Except.ok
    { p.behind place tokens text kind false ⟨place.pass text, t⟩ with pending := ps }) hnone

/-- A colon behind a node that is no key is refused. -/
theorem exists_step_error {s : TokenState} (hdepth : s.depth = 0) (hpending : s.pending = [])
    (hallowed : s.keyAllowed = false) (hindent : s.indent ≤ s.cursor.column) {m : Mark} {e : Char}
    (hcursor : s.cursor = ⟨m, ':' :: e :: r⟩) (he : e = ' ' ∨ e = '\n') : ∃ f, s.step = .error f := by
  have hsettle : s.settle = .ok s := by
    rw [settle, approach_self, dropStale_of_pending hpending]
    rw [hcursor]
    exact Cursor.startsToken_cons (by decide) _
  have hvalue : ∃ f, s.value = .error f := by
    rw [value, hpending, hdepth, hallowed]
    exact ⟨_, rfl⟩
  obtain ⟨f, hf⟩ := hvalue
  refine ⟨f, ?_⟩
  rw [step_eq, hsettle]
  dsimp only [Except.bind]
  rw [unwind_of_le hindent, cut_value hcursor he, hf]

/-- A key on a line of its own that is too long for one. -/
theorem finishes_of_longKey (sp : Space) (hspells : Spells text kind)
    (hbreak : ∀ c ∈ text, isBreak c = false) (hlong : keyReach < text.length)
    (hrest : p.rest = text ++ ':' :: (sp.text ++ r)) (hallowed : p.keyAllowed = true)
    (hindent : p.indent ≤ p.column) : p.Finishes none := by
  have htext : ∀ c ∈ text, isRaw c = true ∧ isBreak c = false := fun c hc =>
    ⟨hspells.raw c hc, hbreak c hc⟩
  obtain ⟨e, t, hsp, he⟩ := sp.exists_text
  have hcut := fun place tokens (hfits : p.Fits place tokens) =>
    cut_spells_key (t := t ++ r) hfits hspells (by rw [hrest, hsp]; rfl) he hindent
  -- the first key of a block is not required, so the fault is found at its colon
  rcases Int.lt_or_eq_of_le hindent with hfirst | hnext
  · refine finishes_of_cut hindent fun place tokens hfits => ?_
    have hopen : ({ p.behind place tokens text kind false ⟨place.pass text, ':' :: e :: (t ++ r)⟩ with
        pending := [] } : TokenState).IsOpen :=
      hfits.isOpen_cons (t := ⟨kind, place, _⟩) hspells.ne_streamEnd rfl
    have hcolumn : p.indent ≤ ((place.pass text).column : Int) := by
      rw [hfits.column_pass htext]
      omega
    obtain ⟨f, hstep⟩ := exists_step_error (r := t ++ r) (s :=
      { p.behind place tokens text kind false ⟨place.pass text, ':' :: e :: (t ++ r)⟩ with pending := [] })
      rfl rfl rfl hcolumn rfl he
    have hlength : 0 < p.rest.length := by
      rw [hrest, List.length_append, List.length_cons]
      omega
    exact ⟨_, _, hcut place tokens hfits, dropStale_long htext hlong hfirst,
      (Ends.of_fault hopen hstep).mono hlength⟩
  · refine finishes_none_of_cut hindent fun place tokens hfits => ?_
    obtain ⟨f, hdrop⟩ : ∃ f, (p.behind place tokens text kind false
        ⟨place.pass text, ':' :: e :: (t ++ r)⟩).dropStale = .error f :=
      dropStale_required htext hlong hallowed hnext
    exact ⟨_, f, hcut place tokens hfits, hdrop⟩

end Key

end Point

end DocDesk.Yaml
