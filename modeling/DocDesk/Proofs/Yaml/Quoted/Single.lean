import DocDesk.Proofs.Yaml.Quoted.Basic

/-!
# Single-quoted texts read back

Between single quotes a quote is doubled, and a run of line breaks starts the next line at the
indentation.  A text whose blanks stand apart from its line breaks is read back, but for the character
U+0085, which is read as a line feed: a text that has it is read as another one.

Main statements: `quotedToken_singleQuoted` and `readSingle_eq_self_iff`.
-/

namespace DocDesk.Yaml

namespace Style

/-- Single quotes keep the blanks of the text apart from its line breaks. -/
structure SingleSafe (cs : List Char) : Prop where
  raw : Raw cs
  blankBeforeBreak : ∀ u b v, cs = u ++ ' ' :: b :: v → isBreak b = false
  blankAfterBreak : ∀ u a v, cs = u ++ a :: ' ' :: v → isBreak a = false

/-- Where no blank stands before a break, what follows a blank is none. -/
theorem isBreak_of_hasBlankBeforeBreak {u v : List Char} {b : Char}
    (h : hasBlankBeforeBreak (u ++ ' ' :: b :: v) = false) : isBreak b = false := by
  induction u with
  | nil =>
    rw [List.nil_append, hasBlankBeforeBreak, Bool.or_eq_false_iff] at h
    simpa using h.1
  | cons c u ih =>
    refine ih ?_
    obtain ⟨d, w, hw⟩ : ∃ d w, u ++ ' ' :: b :: v = d :: w :=
      List.exists_cons_of_ne_nil (by simp)
    rw [List.cons_append, hw, hasBlankBeforeBreak, Bool.or_eq_false_iff] at h
    rw [hw]
    exact h.2

/-- Where no blank stands behind a break, what a blank follows is none. -/
theorem isBreak_of_hasBlankAfterBreak {u v : List Char} {a : Char}
    (h : hasBlankAfterBreak (u ++ a :: ' ' :: v) = false) : isBreak a = false := by
  induction u with
  | nil =>
    rw [List.nil_append, hasBlankAfterBreak, Bool.or_eq_false_iff] at h
    simpa using h.1
  | cons c u ih =>
    refine ih ?_
    obtain ⟨d, w, hw⟩ : ∃ d w, u ++ a :: ' ' :: v = d :: w := List.exists_cons_of_ne_nil (by simp)
    rw [List.cons_append, hw, hasBlankAfterBreak, Bool.or_eq_false_iff] at h
    rw [hw]
    exact h.2

/-- The decision for single quotes says what they keep. -/
theorem singleSafe_of_isSingleSafe {cs : List Char} (h : isSingleSafe cs = true) : SingleSafe cs := by
  simp only [isSingleSafe, Bool.not_eq_true', Bool.or_eq_false_iff, Bool.not_eq_false'] at h
  obtain ⟨⟨hafter, hbefore⟩, hraw⟩ := h
  refine ⟨List.all_eq_true.mp hraw, fun u b v hcs => ?_, fun u a v hcs => ?_⟩
  · rw [hcs] at hbefore
    exact isBreak_of_hasBlankBeforeBreak hbefore
  · rw [hcs] at hafter
    exact isBreak_of_hasBlankAfterBreak hafter

/-- The end of a safe text is safe. -/
theorem SingleSafe.right {u v : List Char} (h : SingleSafe (u ++ v)) : SingleSafe v where
  raw := h.raw.right
  blankBeforeBreak u' b w hv := h.blankBeforeBreak (u ++ u') b w (by rw [hv, List.append_assoc])
  blankAfterBreak u' a w hv := h.blankAfterBreak (u ++ u') a w (by rw [hv, List.append_assoc])

/-! ## The written text -/

/-- A text of one line between single quotes. -/
def doubled (w : List Char) : List Char := w.flatMap fun c => if c = '\'' then ['\'', '\''] else [c]

variable {indent : Nat}

/-- A part without breaks is written with its quotes doubled. -/
theorem singleQuotedBody_append {w rest : List Char} (hw : ∀ c ∈ w, isBreak c = false) :
    singleQuotedBody indent (w ++ rest) = doubled w ++ singleQuotedBody indent rest := by
  induction w with
  | nil => rfl
  | cons c w ih =>
    obtain ⟨hc, hw⟩ := List.forall_mem_cons.mp hw
    rw [List.cons_append, singleQuotedBody, doubled, List.flatMap_cons, ih hw, doubled, hc]
    by_cases hquote : c = '\''
    · simp [hquote]
    · simp [hquote]

/-- Without quotes nothing is doubled. -/
theorem doubled_eq_self {w : List Char} (hw : '\'' ∉ w) : doubled w = w := by
  induction w with
  | nil => rfl
  | cons c w ih =>
    obtain ⟨hc, hw⟩ := not_or.mp (mt List.mem_cons.mpr hw)
    rw [doubled, List.flatMap_cons, if_neg (Ne.symm hc), ← doubled, ih hw]
    rfl

/-- Behind a run of breaks the next line is indented. -/
theorem singleQuotedBody_breaks {run rest : List Char} (hne : run ≠ [])
    (hrun : ∀ c ∈ run, isBreak c = true) (hrest : ∀ c ∈ rest.head?, isBreak c = false) :
    singleQuotedBody indent (run ++ rest) =
      breakRun run ++ List.replicate indent ' ' ++ singleQuotedBody indent rest := by
  obtain ⟨c, more, rfl⟩ := List.exists_cons_of_ne_nil hne
  obtain ⟨hc, hmore⟩ := List.forall_mem_cons.mp hrun
  have hquote : c ≠ '\'' := by rintro rfl; cases hc
  rw [List.cons_append, singleQuotedBody, if_neg hquote, if_pos hc]
  dsimp only
  rw [Text.takeWhile_append_of_stop hmore hrest, Text.dropWhile_append_of_stop hmore hrest]

/-- Doubling at most doubles the length. -/
theorem length_doubled_le (w : List Char) : (doubled w).length ≤ 2 * w.length := by
  induction w with
  | nil => exact Nat.le_refl _
  | cons c w ih =>
    have hpart : (if c = '\'' then ['\'', '\''] else [c]).length ≤ 2 := by
      split <;> simp
    rw [doubled, List.flatMap_cons, ← doubled, List.length_append, List.length_cons]
    omega

/-- Doubling brings in nothing but quotes. -/
theorem mem_doubled {w : List Char} {d : Char} (hd : d ∈ doubled w) : d ∈ w ∨ d = '\'' := by
  obtain ⟨c, hc, hd⟩ := List.mem_flatMap.mp hd
  split at hd
  · simp only [List.mem_cons, List.not_mem_nil, or_false, or_self] at hd
    exact .inr hd
  · rw [List.mem_singleton.mp hd]
    exact .inl hc

/-- A run of breaks does not get shorter. -/
theorem length_le_breakRun (run : List Char) : run.length ≤ (breakRun run).length := by
  rw [breakRun]
  split
  · exact Nat.le_succ _
  · exact Nat.le_refl _

/-- Nor does a text. -/
theorem length_le_singleQuotedBody (indent : Nat) (cs : List Char) :
    cs.length ≤ (singleQuotedBody indent cs).length := by
  fun_induction singleQuotedBody indent cs with
  | case1 => exact Nat.le_refl _
  | case2 r ih =>
    simp only [List.length_cons]
    omega
  | case3 c r hquote hbreak run ih =>
    have hrun := length_le_breakRun (c :: run)
    have hcut : run.length + (r.dropWhile isBreak).length = r.length := by
      rw [← List.length_append, List.takeWhile_append_dropWhile]
    simp only [List.length_append, List.length_cons] at hrun ⊢
    omega
  | case4 c r hquote hbreak ih =>
    simp only [List.length_cons]
    omega

/-- A run of breaks may stand as it is when it is written. -/
theorem raw_breakRun {run : List Char} (h : Raw run) : Raw (breakRun run) := by
  rw [breakRun]
  split
  · exact Raw.cons (by decide) h
  · exact h

/-- Nothing in single quotes is escaped. -/
theorem raw_singleQuotedBody {cs : List Char} (h : Raw cs) : Raw (singleQuotedBody indent cs) := by
  fun_induction singleQuotedBody indent cs with
  | case1 => exact h
  | case2 r ih => exact Raw.cons (by decide) (Raw.cons (by decide) (ih (List.forall_mem_cons.mp h).2))
  | case3 c r hquote hbreak run ih =>
    have hcut : c :: r = (c :: run) ++ r.dropWhile isBreak := by
      rw [List.cons_append, List.takeWhile_append_dropWhile]
    rw [hcut] at h
    exact ((raw_breakRun h.left).append (raw_replicate indent)).append (ih h.right)
  | case4 c r hquote hbreak ih =>
    obtain ⟨hc, hr⟩ := List.forall_mem_cons.mp h
    exact Raw.cons hc (ih hr)

/-- So may a text. -/
theorem raw_singleQuoted {cs : List Char} (h : Raw cs) : Raw (singleQuoted indent cs) :=
  Raw.cons (by decide) ((raw_singleQuotedBody h).append (by decide))

/-- A text of one line between single quotes. -/
theorem singleQuoted_of_no_break {cs : List Char} (h : ∀ c ∈ cs, isBreak c = false) :
    singleQuoted indent cs = '\'' :: doubled cs ++ ['\''] := by
  have hbody := @singleQuotedBody_append indent cs [] h
  rw [List.append_nil, singleQuotedBody, List.append_nil] at hbody
  rw [singleQuoted, hbody]

end Style

namespace Quoted

open Style

/-! ## The text that is read -/

/-- A text between single quotes as it is read back. -/
def readSingle : List Char → List Char
  | [] => []
  | c :: r =>
    if isBreak c then readRun (c :: r.takeWhile isBreak) ++ readSingle (r.dropWhile isBreak)
    else c :: readSingle r
termination_by cs => cs.length
decreasing_by
  all_goals simp
  have := (r.dropWhile_suffix isBreak).length_le
  omega

/-- A word is read back as it is. -/
theorem readSingle_append {w rest : List Char} (hw : ∀ c ∈ w, isBreak c = false) :
    readSingle (w ++ rest) = w ++ readSingle rest := by
  induction w with
  | nil => rfl
  | cons c w ih =>
    obtain ⟨hc, hw⟩ := List.forall_mem_cons.mp hw
    rw [List.cons_append, readSingle, hc, if_neg Bool.false_ne_true, ih hw, List.cons_append]

/-- A run of line breaks is read on its own. -/
theorem readSingle_breaks {c : Char} {t : List Char} (hc : isBreak c = true) :
    readSingle (c :: t) = readRun (c :: t.takeWhile isBreak) ++ readSingle (t.dropWhile isBreak) := by
  rw [readSingle, if_pos hc]

/-- A run is read as no more characters than it has. -/
theorem length_readRun_le (run : List Char) : (readRun run).length ≤ run.length := by
  cases run with
  | nil => exact Nat.le_refl _
  | cons c run =>
    rw [readRun]
    split
    · split <;> simp
    · simp

/-- A text is read back as no more characters than it has. -/
theorem length_readSingle_le (cs : List Char) : (readSingle cs).length ≤ cs.length := by
  fun_induction readSingle cs with
  | case1 => exact Nat.le_refl _
  | case2 c r hbreak ih =>
    have hrun := length_readRun_le (c :: r.takeWhile isBreak)
    have hcut : (r.takeWhile isBreak).length + (r.dropWhile isBreak).length = r.length := by
      rw [← List.length_append, List.takeWhile_append_dropWhile]
    rw [List.length_cons] at hrun
    rw [List.length_append, List.length_cons]
    omega
  | case3 c r hbreak ih =>
    rw [List.length_cons, List.length_cons]
    omega

/-- Something is read of every run. -/
theorem readRun_ne_nil (c : Char) (run : List Char) : readRun (c :: run) ≠ [] := by
  rw [readRun]
  split
  · cases run <;> simp
  · exact List.cons_ne_nil _ _

/-- A line break is never read as U+0085. -/
theorem nextLine_ne_readBreak (c : Char) : '\x85' ≠ readBreak c := by
  rw [readBreak]
  split
  · decide
  · next h => exact Ne.symm h

/-- No run is read as one that has U+0085. -/
theorem nextLine_notMem_readRun (run : List Char) : '\x85' ∉ readRun run := by
  have hmap : ∀ more : List Char, '\x85' ∉ more.map readBreak := by
    intro more hmem
    obtain ⟨c, -, hc⟩ := List.mem_map.mp hmem
    exact nextLine_ne_readBreak c hc.symm
  cases run with
  | nil => exact List.not_mem_nil
  | cons c run =>
    rw [readRun]
    split
    · split
      · decide
      · exact hmap run
    · next h => exact List.not_mem_cons_of_ne_of_not_mem (Ne.symm h) (hmap run)

/-- A run without U+0085 is read as it is. -/
theorem readRun_eq_self {run : List Char} (h : '\x85' ∉ run) : readRun run = run := by
  cases run with
  | nil => rfl
  | cons c run =>
    obtain ⟨hc, hrun⟩ := not_or.mp (mt List.mem_cons.mpr h)
    rw [readRun, if_neg (Ne.symm hc)]
    have hsame : ∀ d ∈ run, readBreak d = d := by
      intro d hd
      refine if_neg ?_
      rintro rfl
      exact hrun hd
    rw [List.map_congr_left hsame, List.map_id']

/-- A text between single quotes is read back as it is exactly if U+0085 is not in it. -/
theorem readSingle_eq_self_iff {cs : List Char} : readSingle cs = cs ↔ '\x85' ∉ cs := by
  constructor
  · intro hsame
    rw [← hsame]
    clear hsame
    fun_induction readSingle cs with
    | case1 => exact List.not_mem_nil
    | case2 c r hbreak ih =>
      exact fun hmem => (List.mem_append.mp hmem).elim (nextLine_notMem_readRun _) ih
    | case3 c r hbreak ih =>
      refine List.not_mem_cons_of_ne_of_not_mem ?_ ih
      rintro rfl
      exact hbreak rfl
  · intro h
    fun_induction readSingle cs with
    | case1 => rfl
    | case2 c r hbreak ih =>
      have hcut : c :: r = (c :: r.takeWhile isBreak) ++ r.dropWhile isBreak := by
        rw [List.cons_append, List.takeWhile_append_dropWhile]
      rw [hcut, List.mem_append, not_or] at h
      rw [readRun_eq_self h.1, ih h.2, ← hcut]
    | case3 c r hbreak ih => rw [ih fun hr => h (List.mem_cons_of_mem _ hr)]

variable {indent : Nat} {since m : Mark} {r : List Char}

/-! ## Words and gaps -/

/-- A character that is no blank is read from its written form. -/
theorem readsChar_doubled {c : Char} (hc : IsSolid c) :
    ReadsChar false (if c = '\'' then ['\'', '\''] else [c]) c := by
  intro since m r fuel
  obtain ⟨hraw, hblank, hbreak⟩ := hc
  by_cases hquote : c = '\''
  · subst hquote
    exact ⟨fuel, Nat.le_refl _, solid_quote⟩
  rw [if_neg hquote]
  by_cases hgap : isGapStart c = true
  · -- of the characters that stop a run only two are left
    have hother : (!false && (c = '"' || c = '\\') : Bool) = true := by
      rw [isGapStart_of_isRaw hraw] at hgap
      simpa [hquote, hblank, hbreak] using hgap
    exact ⟨fuel, Nat.le_refl _, solid_other hraw hgap (by simpa using hother)⟩
  · exact ⟨fuel + 1, Nat.le_succ _, solid_cons hraw (by simpa using hgap)⟩

/-- A word between single quotes is read up to what ends it. -/
theorem isWord_doubled {w : List Char} (hw : ∀ c ∈ w, IsSolid c) : IsWord false (doubled w) w :=
  isWord_flatMap (fun c => by split <;> exact List.cons_ne_nil _ _) fun c hc => readsChar_doubled (hw c hc)

/-- The text `cs` starts with blanks or line breaks: they are written as `written` and read back from
there as `between`, and `rest` follows them. -/
structure IsGap (indent : Nat) (cs between written rest : List Char) : Prop where
  cut : ∃ run, run ≠ [] ∧ cs = run ++ rest
  nonempty : between ≠ []
  text : singleQuotedBody indent cs = written ++ singleQuotedBody indent rest
  value : readSingle cs = between ++ readSingle rest
  first : ∃ e front, written = e :: front ∧ isRaw e = true ∧ (e = ' ' ∨ isBreak e = true)
  next : ∀ d ∈ rest.head?, d ≠ ' ' ∧ isBreak d = false
  read : ∀ since m d r, IsSolid d →
    gap since ⟨m, written ++ d :: r⟩ = .ok (between, ⟨m.pass written, d :: r⟩)

/-- The last of the characters before `v` has what all of them have. -/
theorem exists_last {p : Char → Prop} {u v : List Char} (hne : u ≠ []) (hall : ∀ c ∈ u, p c) :
    ∃ front e, p e ∧ u ++ v = front ++ e :: v := by
  refine ⟨u.dropLast, u.getLast hne, hall _ (List.getLast_mem hne), ?_⟩
  rw [List.append_cons, List.dropLast_concat_getLast]

/-- Blanks are a gap that is read as it is. -/
theorem isGap_blanks {t : List Char} (hsafe : SingleSafe (' ' :: t)) :
    IsGap indent (' ' :: t) (' ' :: t.takeWhile (· = ' ')) (' ' :: t.takeWhile (· = ' '))
      (t.dropWhile (· = ' ')) := by
  have hall : ∀ d ∈ ' ' :: t.takeWhile (· = ' '), d = ' ' := by
    refine List.forall_mem_cons.mpr ⟨rfl, fun d hd => ?_⟩
    simpa using Text.of_mem_takeWhile hd
  have hcut : ' ' :: t = (' ' :: t.takeWhile (· = ' ')) ++ t.dropWhile (· = ' ') := by
    rw [List.cons_append, List.takeWhile_append_dropWhile]
  have hbreak : ∀ d ∈ ' ' :: t.takeWhile (· = ' '), isBreak d = false := by
    intro d hd
    rw [hall d hd]
    rfl
  refine ⟨⟨_, List.cons_ne_nil _ _, hcut⟩, List.cons_ne_nil _ _, ?_, ?_,
    ⟨' ', _, rfl, by decide, .inl rfl⟩, fun d hd => ⟨?_, ?_⟩, fun since m d r hd => gap_blanks hd hall⟩
  · have hquote : '\'' ∉ ' ' :: t.takeWhile (· = ' ') := by
      intro hmem
      cases hall _ hmem
    calc singleQuotedBody indent (' ' :: t)
        = singleQuotedBody indent ((' ' :: t.takeWhile (· = ' ')) ++ t.dropWhile (· = ' ')) := by
          rw [← hcut]
      _ = _ := by rw [singleQuotedBody_append hbreak, doubled_eq_self hquote]
  · calc readSingle (' ' :: t)
        = readSingle ((' ' :: t.takeWhile (· = ' ')) ++ t.dropWhile (· = ' ')) := by rw [← hcut]
      _ = _ := readSingle_append hbreak
  · simpa using Text.head?_dropWhile hd
  · obtain ⟨v, hv⟩ := List.head?_eq_some_iff.mp hd
    obtain ⟨front, e, rfl, hlast⟩ := exists_last (v := d :: v) (List.cons_ne_nil _ _) hall
    refine hsafe.blankBeforeBreak front d v ?_
    rw [hcut, hv, hlast]

/-- A run of breaks is a gap that is read as the run it is folded to. -/
theorem isGap_breaks (hindent : 0 < indent) {c : Char} {t : List Char} (hsafe : SingleSafe (c :: t))
    (hc : isBreak c = true) :
    IsGap indent (c :: t) (readRun (c :: t.takeWhile isBreak))
      (breakRun (c :: t.takeWhile isBreak) ++ List.replicate indent ' ') (t.dropWhile isBreak) := by
  have hall : ∀ d ∈ c :: t.takeWhile isBreak, isBreak d = true :=
    List.forall_mem_cons.mpr ⟨hc, fun d hd => Text.of_mem_takeWhile hd⟩
  have hcut : c :: t = (c :: t.takeWhile isBreak) ++ t.dropWhile isBreak := by
    rw [List.cons_append, List.takeWhile_append_dropWhile]
  have hnext : ∀ d ∈ (t.dropWhile isBreak).head?, isBreak d = false := fun d hd =>
    Text.head?_dropWhile hd
  have hsub : ∀ d ∈ c :: t.takeWhile isBreak, d ∈ c :: t := fun d hd => by
    rw [hcut]
    exact List.mem_append_left _ hd
  refine ⟨⟨_, List.cons_ne_nil _ _, hcut⟩, readRun_ne_nil _ _, ?_, readSingle_breaks hc, ?_,
    fun d hd => ⟨?_, hnext d hd⟩, fun since m d r hd => ?_⟩
  · calc singleQuotedBody indent (c :: t)
        = singleQuotedBody indent ((c :: t.takeWhile isBreak) ++ t.dropWhile isBreak) := by rw [← hcut]
      _ = _ := by rw [singleQuotedBody_breaks (List.cons_ne_nil _ _) hall hnext]
  · obtain ⟨front, hfront⟩ : ∃ front, breakRun (c :: t.takeWhile isBreak) = c :: front := by
      by_cases hfeed : c = '\n'
      · exact ⟨c :: t.takeWhile isBreak, by simp [breakRun, hfeed]⟩
      · exact ⟨t.takeWhile isBreak, by simp [breakRun, hfeed]⟩
    rw [hfront]
    exact ⟨c, _, rfl, hsafe.raw c List.mem_cons_self, .inr hc⟩
  · rintro rfl
    obtain ⟨v, hv⟩ := List.head?_eq_some_iff.mp hd
    obtain ⟨front, e, he, hlast⟩ := exists_last (v := ' ' :: v) (List.cons_ne_nil _ _) hall
    rw [hsafe.blankAfterBreak front e v (by rw [hcut, hv, hlast])] at he
    cases he
  · rw [List.append_assoc]
    exact gap_breaks hd hindent (List.cons_ne_nil _ _) (fun d hd => hsafe.raw d (hsub d hd)) hall

/-- The first run of blanks or line breaks of a text that starts with one is read back. -/
theorem exists_isGap (hindent : 0 < indent) {c : Char} {t : List Char} (hsafe : SingleSafe (c :: t))
    (hc : c = ' ' ∨ isBreak c = true) :
    ∃ between written rest, IsGap indent (c :: t) between written rest := by
  rcases hc with rfl | hc
  · exact ⟨_, _, _, isGap_blanks hsafe⟩
  · exact ⟨_, _, _, isGap_breaks hindent hsafe hc⟩

/-- What is neither a blank nor a break starts a part. -/
theorem exists_isSolid {rest : List Char} (hraw : Raw rest)
    (hhead : ∀ c ∈ rest.head?, c ≠ ' ' ∧ isBreak c = false) :
    ∃ d t, IsSolid d ∧ singleQuotedBody indent rest ++ '\'' :: r = d :: t := by
  cases rest with
  | nil => exact ⟨'\'', r, ⟨by decide, by decide, rfl⟩, by rw [singleQuotedBody, List.nil_append]⟩
  | cons c rest =>
    obtain ⟨hblank, hbreak⟩ := hhead c rfl
    by_cases hquote : c = '\''
    · refine ⟨'\'', '\'' :: singleQuotedBody indent rest ++ '\'' :: r, ⟨by decide, by decide, rfl⟩, ?_⟩
      rw [singleQuotedBody, if_pos hquote]
      rfl
    · refine ⟨c, singleQuotedBody indent rest ++ '\'' :: r,
        ⟨hraw c List.mem_cons_self, hblank, hbreak⟩, ?_⟩
      rw [singleQuotedBody, if_neg hquote, hbreak, if_neg Bool.false_ne_true, List.cons_append]

/-- A text between single quotes is made of words with blanks and line breaks between them. -/
theorem woven_singleQuotedBody (hindent : 0 < indent) {cs : List Char} (hsafe : SingleSafe cs) :
    Woven false (singleQuotedBody indent cs) (readSingle cs) := by
  induction hlength : cs.length using Nat.strongRecOn generalizing cs with
  | ind n ih =>
    -- the first word, and what follows it
    obtain ⟨w, t, rfl, hword, ht⟩ := Text.exists_run (fun c => c ≠ ' ' && !isBreak c) cs
    have hw : ∀ c ∈ w, IsSolid c := fun c hc =>
      ⟨hsafe.raw c (List.mem_append_left t hc), by simpa using hword c hc⟩
    rw [singleQuotedBody_append fun c hc => (hw c hc).2.2, readSingle_append fun c hc => (hw c hc).2.2]
    cases t with
    | nil =>
      rw [singleQuotedBody, readSingle, List.append_nil, List.append_nil]
      exact .word (isWord_doubled hw)
    | cons c t =>
      have hc : c = ' ' ∨ isBreak c = true := by
        by_cases hblank : c = ' '
        · exact .inl hblank
        · exact .inr (by simpa [hblank] using ht c rfl)
      obtain ⟨between, written, rest, hgap⟩ := exists_isGap hindent hsafe.right hc
      obtain ⟨e, front, rfl, hraw, he⟩ := hgap.first
      obtain ⟨run, hrun, hcut⟩ := hgap.cut
      have hrest : SingleSafe rest := by
        rw [hcut] at hsafe
        exact hsafe.right.right
      have hshorter : rest.length < n := by
        have hpos := List.length_pos_iff.mpr hrun
        rw [← hlength, hcut]
        simp only [List.length_append]
        omega
      rw [hgap.text, hgap.value]
      exact .cons (isWord_doubled hw) hraw he hgap.nonempty hgap.read
        (fun r => exists_isSolid hrest.raw hgap.next) (ih rest.length hshorter hrest rfl)

/-- A quote that is not doubled ends the reading of a word. -/
theorem stops_closing_single (hr : r.head? ≠ some '\'') : Stops false (closing false :: r) :=
  fun _ _ _ => solid_stop rfl (by decide) nofun fun _ => ⟨by decide, fun _ => hr⟩

end Quoted

/-- A text between single quotes is read back, but for U+0085. -/
theorem quotedToken_singleQuoted {indent : Nat} (hindent : 0 < indent) {cs r : List Char} {m : Mark}
    (hsafe : Style.SingleSafe cs) (hr : r.head? ≠ some '\'') :
    quotedToken false ⟨m, Style.singleQuoted indent cs ++ r⟩ =
      .ok (⟨.scalar (Quoted.readSingle cs) false, m, m.pass (Style.singleQuoted indent cs)⟩,
        ⟨m.pass (Style.singleQuoted indent cs), r⟩) := by
  have hquote : Raw ['\''] := by decide
  have hopen : (⟨m, Style.singleQuoted indent cs ++ r⟩ : Cursor).advance =
      ⟨m.pass ['\''], Style.singleQuotedBody indent cs ++ '\'' :: r⟩ := by
    rw [Style.singleQuoted, List.cons_append, List.cons_append, Cursor.advance_cons (by decide),
      List.append_assoc, List.singleton_append]
  have hlength : (Quoted.readSingle cs).length < (Style.singleQuoted indent cs ++ r).length + 1 := by
    have hread := Quoted.length_readSingle_le cs
    have hle := Style.length_le_singleQuotedBody indent cs
    simp only [Style.singleQuoted, List.length_append, List.length_cons]
    omega
  have hclose : Style.singleQuoted indent cs = ['\''] ++ (Style.singleQuotedBody indent cs ++ ['\'']) := rfl
  have hbody : Quoted.body false m ((Style.singleQuoted indent cs ++ r).length + 1)
      ⟨m.pass ['\''], Style.singleQuotedBody indent cs ++ '\'' :: r⟩ =
      .ok (Quoted.readSingle cs, ⟨(m.pass ['\'']).pass (Style.singleQuotedBody indent cs), '\'' :: r⟩) :=
    Quoted.body_of_woven (Quoted.woven_singleQuotedBody hindent hsafe)
      (Quoted.stops_closing_single hr) hlength
  simp only [quotedToken, hopen, hbody]
  dsimp only [bind, Except.bind]
  rw [Cursor.advance_cons (by decide), hclose, Mark.pass_append, Mark.pass_append]

end DocDesk.Yaml
