import DocDesk.Proofs.Yaml.Cursor
import DocDesk.Yaml.Token.Quoted

/-!
# Parts of quoted scalars

How the reader of a quoted scalar passes characters that stand for themselves, blanks, and line breaks
with the indentation behind them.  A text written as words with blanks or line breaks between them is
read back whole, between quotes of either kind.

Main statements: `solid_cons`, `gap_blanks`, `gap_breaks` and `body_of_woven`.
-/

namespace DocDesk.Yaml

namespace Quoted

variable {double : Bool} {since m : Mark} {r : List Char}

/-- What was read, with more text in front of it. -/
def withFront (front : List Char) (result : Except Fault (Cut (List Char))) :
    Except Fault (Cut (List Char)) :=
  result.map fun p => (front ++ p.1, p.2)

/-- Of characters that may stand as they are quotes, backslashes, blanks and breaks end a part. -/
theorem isGapStart_of_isRaw {c : Char} (h : isRaw c = true) :
    isGapStart c = (c = '\'' || c = '"' || c = '\\' || c = ' ' || isBreak c) := by
  rw [isGapStart, isBlankOrBreak_of_isRaw h]
  simp [Bool.or_assoc]

/-! ## Characters -/

/-- The reading at a character that stands for itself goes on behind it. -/
theorem solid_cons {fuel : Nat} {c : Char} (hc : isRaw c = true) (hgap : isGapStart c = false) :
    solid double since (fuel + 1) ⟨m, c :: r⟩ =
      withFront [c] (solid double since (fuel + 1) ⟨m.pass [c], r⟩) := by
  have hspan : (⟨m, c :: r⟩ : Cursor).span (fun ch => !isGapStart ch) =
      (c :: ((⟨m.pass [c], r⟩ : Cursor).span fun ch => !isGapStart ch).1,
        ((⟨m.pass [c], r⟩ : Cursor).span fun ch => !isGapStart ch).2) := by
    simp only [Cursor.span, List.takeWhile_cons, hgap, Bool.not_false, if_true, List.length_cons,
      Cursor.forward, Cursor.advance_cons hc]
  rw [solid, solid, hspan]
  generalize (⟨m.pass [c], r⟩ : Cursor).span (fun ch => !isGapStart ch) = p
  obtain ⟨run, next⟩ := p
  simp only []
  split
  · rcases solid double since fuel (next.forward 2) with f | ⟨x, d⟩ <;> rfl
  split
  · rcases solid double since fuel next.advance with f | ⟨x, d⟩ <;> rfl
  split
  · rcases escape since next.advance with f | ⟨x, d⟩
    · rfl
    · dsimp only [bind, Except.bind]
      rcases solid double since fuel d with f | ⟨y, e⟩ <;> rfl
  · rfl

/-- Where a part ends nothing is taken. -/
theorem span_gapStart {ch : Char} (hch : isGapStart ch = true) :
    (⟨m, ch :: r⟩ : Cursor).span (fun c => !isGapStart c) = ([], ⟨m, ch :: r⟩) :=
  Cursor.span_append (u := []) (by simp [Raw]) (by simp) (by simpa using hch)

/-- The reading stops at a blank, a line break and the closing quote. -/
theorem solid_stop {fuel : Nat} {ch : Char} (hch : isGapStart ch = true) (hslash : ch ≠ '\\')
    (hdouble : double = true → ch ≠ '\'')
    (hsingle : double = false → ch ≠ '"' ∧ (ch = '\'' → r.head? ≠ some '\'')) :
    solid double since (fuel + 1) ⟨m, ch :: r⟩ = .ok ([], ⟨m, ch :: r⟩) := by
  have hpeek : (⟨m, ch :: r⟩ : Cursor).peek = ch := rfl
  rw [solid, span_gapStart hch]
  simp only [hpeek]
  cases double with
  | true => simp [hdouble rfl, hslash]
  | false =>
    obtain ⟨hquote, htwice⟩ := hsingle rfl
    have hnext : ¬ (ch = '\'' ∧ (⟨m, ch :: r⟩ : Cursor).peekAt 1 = '\'') := by
      rintro ⟨hsame, hpeekAt⟩
      refine htwice hsame ?_
      cases r with
      | nil => cases hpeekAt
      | cons d r => exact congrArg some hpeekAt
    simp [hquote, hslash, hnext]

/-- A quote written twice is one quote. -/
theorem solid_quote {fuel : Nat} :
    solid false since (fuel + 1) ⟨m, '\'' :: '\'' :: r⟩ =
      withFront ['\''] (solid false since fuel ⟨m.pass ['\'', '\''], r⟩) := by
  have hforward : (⟨m, '\'' :: '\'' :: r⟩ : Cursor).forward 2 = ⟨m.pass ['\'', '\''], r⟩ :=
    Cursor.forward_append (u := ['\'', '\'']) (by decide)
  rw [solid, span_gapStart rfl, ← hforward]
  refine (if_pos rfl).trans ?_
  rcases solid false since fuel _ with f | ⟨x, next⟩ <;> rfl

/-- The other quotes, and a backslash between single quotes, stand for themselves. -/
theorem solid_other {fuel : Nat} {ch : Char} (hraw : isRaw ch = true) (hch : isGapStart ch = true)
    (h : (double && ch = '\'' || !double && (ch = '"' || ch = '\\')) = true) :
    solid double since (fuel + 1) ⟨m, ch :: r⟩ =
      withFront [ch] (solid double since fuel ⟨m.pass [ch], r⟩) := by
  have hpeek : (⟨m, ch :: r⟩ : Cursor).peek = ch := rfl
  have hnot : ¬ ((!double && decide (ch = '\'') &&
      decide ((⟨m, ch :: r⟩ : Cursor).peekAt 1 = '\'')) = true) := by
    intro hquote
    cases double with
    | true => cases hquote
    | false =>
      have hne : ch = '\'' := by
        simp only [Bool.not_false, Bool.true_and, Bool.and_eq_true, decide_eq_true_eq] at hquote
        exact hquote.1
      subst hne
      cases h
  rw [solid, span_gapStart hch]
  simp only [hpeek, if_neg hnot, if_pos h, Cursor.advance_cons hraw]
  rcases solid double since fuel ⟨m.pass [ch], r⟩ with f | ⟨x, next⟩ <;> rfl

/-- An escape is taken in front of what follows it. -/
theorem solid_escape {fuel : Nat} {part : List Char} {next : Cursor}
    (h : escape since ⟨m.pass ['\\'], r⟩ = .ok (part, next)) :
    solid true since (fuel + 1) ⟨m, '\\' :: r⟩ = withFront part (solid true since fuel next) := by
  have hadvance : (⟨m, '\\' :: r⟩ : Cursor).advance = ⟨m.pass ['\\'], r⟩ :=
    Cursor.advance_cons (by decide)
  rw [solid, span_gapStart rfl]
  refine (if_neg (by simp)).trans ?_
  refine (if_neg (by simp [Cursor.peek])).trans ?_
  refine (if_pos rfl).trans ?_
  dsimp only
  rw [hadvance, h]
  dsimp only [bind, Except.bind]
  rcases solid true since fuel next with f | ⟨x, behind⟩ <;> rfl

/-! ## Blanks and line breaks -/

/-- The closing quote or a character within the scalar that is no blank. -/
def IsSolid (d : Char) : Prop := isRaw d = true ∧ d ≠ ' ' ∧ isBreak d = false

variable {d : Char}

/-- A solid character is no line break. -/
theorem lineBreak?_of_isSolid (hd : IsSolid d) : (⟨m, d :: r⟩ : Cursor).lineBreak? = none :=
  Cursor.lineBreak?_of_head (by simpa using ⟨(ne_of_isRaw hd.1).1, hd.2.2⟩)

/-- Blanks in front of a solid character are passed. -/
theorem skip_blanks (hd : IsSolid d) (k : Nat) :
    (⟨m, List.replicate k ' ' ++ d :: r⟩ : Cursor).skip (fun ch => ch = ' ' || ch = '\t') =
      ⟨m.pass (List.replicate k ' '), d :: r⟩ := by
  refine Cursor.skip_append (raw_replicate k) (fun c hc => ?_) fun c hc => ?_
  · rw [List.eq_of_mem_replicate hc]
    rfl
  · obtain rfl : d = c := by simpa using hc
    simp [hd.2.1, (ne_of_isRaw hd.1).2.1]

/-- Blanks before more text stand for themselves. -/
theorem gap_blanks (hd : IsSolid d) {b : List Char} (hb : ∀ c ∈ b, c = ' ') :
    gap since ⟨m, b ++ d :: r⟩ = .ok (b, ⟨m.pass b, d :: r⟩) := by
  have hraw : Raw b := fun c hc => (hb c hc) ▸ isRaw_blank
  have hspan : (⟨m, b ++ d :: r⟩ : Cursor).span (fun ch => ch = ' ' || ch = '\t')
      = (b, ⟨m.pass b, d :: r⟩) := by
    refine Cursor.span_append hraw (fun c hc => by rw [hb c hc]; rfl) fun c hc => ?_
    obtain rfl : d = c := by simpa using hc
    simp [hd.2.1, (ne_of_isRaw hd.1).2.1]
  simp only [gap, hspan, lineBreak?_of_isSolid hd]
  rfl

/-- A line break as it is read: U+0085 as a line feed. -/
def readBreak (c : Char) : Char := if c = '\x85' then '\n' else c

/-- A run of line breaks as it is read: U+0085 at its start is taken for the end of the line. -/
def readRun : List Char → List Char
  | [] => []
  | c :: run =>
    if c = '\x85' then (if run.isEmpty then [' '] else run.map readBreak) else c :: run.map readBreak

/-- Line breaks are read up to the indentation of the next line. -/
theorem breaks_append (hd : IsSolid d) {k : Nat} (hk : 0 < k) {run : List Char} (hraw : Raw run)
    (hrun : ∀ c ∈ run, isBreak c = true) {fuel : Nat} (hfuel : run.length < fuel) :
    breaks since fuel ⟨m, run ++ (List.replicate k ' ' ++ d :: r)⟩ =
      .ok (run.map readBreak, ⟨m.pass (run ++ List.replicate k ' '), d :: r⟩) := by
  induction run generalizing m fuel with
  | nil =>
    obtain ⟨fuel, rfl⟩ := Nat.exists_eq_succ_of_ne_zero (Nat.ne_of_gt hfuel)
    have hseparator : (⟨m, List.replicate k ' ' ++ d :: r⟩ : Cursor).atSeparator = false := by
      obtain ⟨j, rfl⟩ := Nat.exists_eq_succ_of_ne_zero (Nat.ne_of_gt hk)
      exact Cursor.atSeparator_of_head (by simp [List.replicate_succ])
    rw [List.nil_append, breaks]
    simp only [hseparator, Bool.false_eq_true, if_false, skip_blanks hd, lineBreak?_of_isSolid hd]
    rfl
  | cons c run ih =>
    obtain ⟨fuel, rfl⟩ := Nat.exists_eq_succ_of_ne_zero (show fuel ≠ 0 by omega)
    obtain ⟨hc, hrun⟩ := List.forall_mem_cons.mp hrun
    obtain ⟨hrawc, hraw⟩ := List.forall_mem_cons.mp hraw
    have hrest : breaks since fuel ⟨m.pass [c], run ++ (List.replicate k ' ' ++ d :: r)⟩ =
        .ok (run.map readBreak, ⟨(m.pass [c]).pass (run ++ List.replicate k ' '), d :: r⟩) :=
      ih hraw hrun (by simpa using hfuel)
    have hseparator : (⟨m, c :: (run ++ (List.replicate k ' ' ++ d :: r))⟩ : Cursor).atSeparator
        = false := by
      refine Cursor.atSeparator_of_head ?_
      rintro e he
      obtain rfl : c = e := by simpa using he
      constructor <;> rintro rfl <;> cases hc
    have hskip : (⟨m, c :: (run ++ (List.replicate k ' ' ++ d :: r))⟩ : Cursor).skip
        (fun ch => ch = ' ' || ch = '\t') = ⟨m, c :: (run ++ (List.replicate k ' ' ++ d :: r))⟩ := by
      refine Cursor.skip_append (u := []) (by simp [Raw]) (by simp) ?_
      rintro e he
      obtain rfl : c = e := by simpa using he
      have hblank : c ≠ ' ' := by rintro rfl; cases hc
      simp [hblank, (ne_of_isRaw hrawc).2.1]
    rw [List.cons_append, breaks]
    simp only [hseparator, Bool.false_eq_true, if_false, hskip, Cursor.lineBreak?_cons hrawc hc]
    rw [hrest]
    rfl

/-- A run of line breaks is read as it was before it was written, but for U+0085. -/
theorem gap_breaks (hd : IsSolid d) {k : Nat} (hk : 0 < k) {run : List Char} (hne : run ≠ [])
    (hraw : Raw run) (hrun : ∀ c ∈ run, isBreak c = true) :
    gap since ⟨m, Style.breakRun run ++ (List.replicate k ' ' ++ d :: r)⟩ =
      .ok (readRun run, ⟨m.pass (Style.breakRun run ++ List.replicate k ' '), d :: r⟩) := by
  obtain ⟨c, rest, rfl⟩ := List.exists_cons_of_ne_nil hne
  -- the first line break of the written run, and the breaks behind it
  obtain ⟨e, more, hwritten, he, hrawe, hmore, hrawmore, hvalue⟩ :
      ∃ e more, Style.breakRun (c :: rest) = e :: more ∧ isBreak e = true ∧ isRaw e = true ∧
        (∀ x ∈ more, isBreak x = true) ∧ Raw more ∧
        (if readBreak e ≠ '\n' then [readBreak e]
          else if (more.map readBreak).isEmpty then [' '] else []) ++ more.map readBreak =
            readRun (c :: rest) := by
    obtain ⟨hc, hrest⟩ := List.forall_mem_cons.mp hrun
    obtain ⟨hrawc, hrawrest⟩ := List.forall_mem_cons.mp hraw
    by_cases hfeed : c = '\n'
    · subst hfeed
      exact ⟨'\n', '\n' :: rest, rfl, rfl, by decide, hrun, hraw, rfl⟩
    · have hsame : Style.breakRun (c :: rest) = c :: rest := by simp [Style.breakRun, hfeed]
      refine ⟨c, rest, hsame, hc, hrawc, hrest, hrawrest, ?_⟩
      rw [readRun, readBreak]
      by_cases hnext : c = '\x85'
      · rw [if_pos hnext, if_pos hnext, if_neg (not_not_intro rfl)]
        cases rest <;> rfl
      · rw [if_neg hnext, if_neg hnext, if_pos hfeed]
        rfl
  rw [hwritten, List.cons_append]
  have hspan : (⟨m, e :: (more ++ (List.replicate k ' ' ++ d :: r))⟩ : Cursor).span
      (fun ch => ch = ' ' || ch = '\t') = ([], ⟨m, e :: (more ++ (List.replicate k ' ' ++ d :: r))⟩) := by
    refine Cursor.span_append (u := []) (by simp [Raw]) (by simp) ?_
    rintro x hx
    obtain rfl : e = x := by simpa using hx
    have hblank : e ≠ ' ' := by rintro rfl; cases he
    simp [hblank, (ne_of_isRaw hrawe).2.1]
  have hbreaks := @breaks_append since (m.pass [e]) r d hd k hk more hrawmore hmore
    (more ++ (List.replicate k ' ' ++ d :: r)).length (by simp only [List.length_append, List.length_cons]; omega)
  have hbreak : (if e = '\x85' then '\n' else e) = readBreak e := rfl
  simp only [gap, hspan, Cursor.lineBreak?_cons hrawe he, hbreak, hbreaks]
  change Except.ok (_, _) = _
  rw [hvalue, ← Mark.pass_append]
  rfl

/-! ## The whole text -/

/-- The closing quote ends the text. -/
theorem body_stop {fuel : Nat} {c next : Cursor} {part : List Char}
    (hsolid : solid double since (c.rest.length + 1) c = .ok (part, next))
    (hquote : next.peek = if double then '"' else '\'') :
    body double since (fuel + 1) c = .ok (part, next) := by
  rw [body, hsolid]
  exact if_pos hquote

/-- A gap joins a part to those behind it. -/
theorem body_gap {fuel : Nat} {c next behind : Cursor} {part between : List Char}
    (hsolid : solid double since (c.rest.length + 1) c = .ok (part, next))
    (hquote : next.peek ≠ if double then '"' else '\'')
    (hgap : gap since next = .ok (between, behind)) :
    body double since (fuel + 1) c = withFront (part ++ between) (body double since fuel behind) := by
  rw [body, hsolid]
  dsimp only [bind, Except.bind]
  rw [if_neg hquote, hgap]
  dsimp only
  rcases body double since fuel behind with f | ⟨x, d⟩ <;> rfl

/-- The quote that ends a scalar. -/
def closing (double : Bool) : Char := if double then '"' else '\''

/-- The reading of a word stops in front of the text `r`. -/
def Stops (double : Bool) (r : List Char) : Prop :=
  ∀ since m fuel, solid double since (fuel + 1) ⟨m, r⟩ = .ok ([], ⟨m, r⟩)

/-- Blanks and line breaks stop the reading of a word between quotes of both kinds. -/
theorem stops_gap {e : Char} (hraw : isRaw e = true) (he : e = ' ' ∨ isBreak e = true) :
    Stops double (e :: r) := by
  have hgap : isGapStart e = true := by
    rw [isGapStart_of_isRaw hraw]
    rcases he with rfl | he
    · rfl
    · simp [he]
  have hne : e ≠ '\\' ∧ e ≠ '\'' ∧ e ≠ '"' := by
    rcases he with rfl | he
    · decide
    · refine ⟨?_, ?_, ?_⟩
      all_goals rintro rfl; cases he
  obtain ⟨hslash, hsingle, hdouble⟩ := hne
  exact fun since m fuel =>
    solid_stop hgap hslash (fun _ => hsingle) fun _ => ⟨hdouble, fun h => absurd h hsingle⟩

/-- The text `written` is read as the word `w`, up to what stops the reading. -/
structure IsWord (double : Bool) (written w : List Char) : Prop where
  length_le : w.length ≤ written.length
  read : ∀ since m r fuel, Stops double r → w.length < fuel →
    solid double since fuel ⟨m, written ++ r⟩ = .ok (w, ⟨m.pass written, r⟩)

/-- A word is taken as one part. -/
theorem IsWord.solid_eq {written w : List Char} (h : IsWord double written w) (hr : Stops double r) :
    solid double since ((written ++ r).length + 1) ⟨m, written ++ r⟩ =
      .ok (w, ⟨m.pass written, r⟩) := by
  refine h.read since m r _ hr ?_
  have hle := h.length_le
  rw [List.length_append]
  omega

/-- The text `written` is read as the character `c`. -/
def ReadsChar (double : Bool) (written : List Char) (c : Char) : Prop :=
  ∀ since m r fuel, ∃ left ≥ fuel, solid double since (fuel + 1) ⟨m, written ++ r⟩ =
    withFront [c] (solid double since left ⟨m.pass written, r⟩)

/-- Writing every character somehow makes no text shorter. -/
theorem length_le_flatMap {write : Char → List Char} (hne : ∀ c, write c ≠ []) (w : List Char) :
    w.length ≤ (w.flatMap write).length := by
  induction w with
  | nil => exact Nat.le_refl _
  | cons c w ih =>
    have hpos := List.length_pos_iff.mpr (hne c)
    rw [List.flatMap_cons, List.length_append, List.length_cons]
    omega

/-- A word is read whole if each of its characters is read from what is written for it. -/
theorem isWord_flatMap {write : Char → List Char} (hne : ∀ c, write c ≠ []) {w : List Char}
    (hw : ∀ c ∈ w, ReadsChar double (write c) c) : IsWord double (w.flatMap write) w := by
  refine ⟨length_le_flatMap hne w, fun since m r fuel hr hfuel => ?_⟩
  induction w generalizing m fuel with
  | nil =>
    obtain ⟨fuel, rfl⟩ := Nat.exists_eq_succ_of_ne_zero (Nat.ne_of_gt hfuel)
    exact hr since m fuel
  | cons c w ih =>
    obtain ⟨fuel, rfl⟩ := Nat.exists_eq_succ_of_ne_zero (show fuel ≠ 0 by omega)
    obtain ⟨hc, hmore⟩ := List.forall_mem_cons.mp hw
    obtain ⟨left, hleft, hread⟩ := hc since m (w.flatMap write ++ r) fuel
    have hfuel' : w.length < left := by
      rw [List.length_cons] at hfuel
      omega
    rw [List.flatMap_cons, List.append_assoc, Mark.pass_append, hread, ih hmore _ left hfuel']
    rfl

/-- The text `written` stands for `cs` between quotes: it is made of words with blanks or line breaks
between them, and behind those comes a character that is no blank or the closing quote. -/
inductive Woven (double : Bool) : List Char → List Char → Prop
  | word {written w : List Char} (hword : IsWord double written w) : Woven double written w
  | cons {written w front between text cs : List Char} {e : Char} (hword : IsWord double written w)
      (hraw : isRaw e = true) (hfirst : e = ' ' ∨ isBreak e = true) (hne : between ≠ [])
      (hgap : ∀ since m d r, IsSolid d →
        gap since ⟨m, e :: front ++ d :: r⟩ = .ok (between, ⟨m.pass (e :: front), d :: r⟩))
      (hnext : ∀ r, ∃ d t, IsSolid d ∧ text ++ closing double :: r = d :: t)
      (rest : Woven double text cs) :
      Woven double (written ++ (e :: front ++ text)) (w ++ (between ++ cs))

/-- What is made of words and what stands between them is read up to the closing quote. -/
theorem body_of_woven {text cs : List Char} (h : Woven double text cs)
    (hclose : Stops double (closing double :: r)) {fuel : Nat} (hfuel : cs.length < fuel) :
    body double since fuel ⟨m, text ++ closing double :: r⟩ =
      .ok (cs, ⟨m.pass text, closing double :: r⟩) := by
  induction h generalizing m fuel with
  | word hword =>
    obtain ⟨fuel, rfl⟩ := Nat.exists_eq_succ_of_ne_zero (Nat.ne_zero_of_lt hfuel)
    exact body_stop (hword.solid_eq hclose) rfl
  | @cons written w front between text cs e hword hraw hfirst hne hgap hnext _ ih =>
    obtain ⟨fuel, rfl⟩ := Nat.exists_eq_succ_of_ne_zero (Nat.ne_zero_of_lt hfuel)
    obtain ⟨d, behind, hd, hbehind⟩ := hnext r
    have hquote : e ≠ closing double := by
      rcases hfirst with rfl | he
      · cases double <;> decide
      · rintro rfl
        cases double <;> cases he
    have hshorter : cs.length < fuel := by
      have hpos := List.length_pos_iff.mpr hne
      simp only [List.length_append] at hfuel
      omega
    have hrest : body double since fuel ⟨(m.pass written).pass (e :: front), d :: behind⟩ =
        .ok (cs, ⟨((m.pass written).pass (e :: front)).pass text, closing double :: r⟩) := by
      rw [← hbehind]
      exact ih hshorter
    have hbody : body double since (fuel + 1) ⟨m, written ++ (e :: front ++ d :: behind)⟩ =
        withFront (w ++ between)
          (body double since fuel ⟨(m.pass written).pass (e :: front), d :: behind⟩) :=
      body_gap (hword.solid_eq (stops_gap hraw hfirst)) hquote (hgap since _ d behind hd)
    rw [List.append_assoc, List.append_assoc, hbehind]
    refine hbody.trans ?_
    rw [hrest, withFront, Except.map, List.append_assoc, Mark.pass_append, Mark.pass_append]

end Quoted

end DocDesk.Yaml
