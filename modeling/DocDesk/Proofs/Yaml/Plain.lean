import DocDesk.Proofs.Yaml.Cursor
import DocDesk.Yaml.Token.Plain

/-!
# Plain scalars read back

A text that plain style keeps apart from its surroundings is read whole, up to the colon or the line
break that it is followed by.

Main statements: `words_of_readable`, `continuation_eq` and `plainToken_eq`.
-/

namespace DocDesk.Yaml

namespace Style

/-- What holds no indicator holds none further on. -/
theorem holdsIndicator_suffix {a b : Char} {u v : List Char}
    (h : holdsIndicator (a :: (u ++ b :: v)) = false) : holdsIndicator (b :: v) = false := by
  induction u generalizing a with
  | nil =>
    rw [List.nil_append, holdsIndicator, Bool.or_eq_false_iff] at h
    exact h.2
  | cons c u ih =>
    rw [List.cons_append, holdsIndicator, Bool.or_eq_false_iff] at h
    exact ih h.2

/-- Plain style keeps the text apart from everything around it. -/
structure PlainSafe (cs : List Char) : Prop where
  raw : Raw cs
  noBreak : ∀ c ∈ cs, isBreak c = false
  first : cs.head? ≠ some ' '
  last : cs.getLast? ≠ some ' '
  start : startsAsIndicator cs = false
  indicator : holdsIndicator cs = false
  document : startsDocument cs = false

/-- A text that is found safe is safe. -/
theorem plainSafe_of_isPlainSafe {cs : List Char} (h : isPlainSafe cs = true) : PlainSafe cs := by
  simp only [isPlainSafe, Bool.not_eq_true', Bool.or_eq_false_iff, Bool.not_eq_false'] at h
  obtain ⟨⟨⟨⟨⟨houter, hline⟩, hraw⟩, hstart⟩, hindicator⟩, hdocument⟩ := h
  rw [hasOuterBlank, Bool.or_eq_false_iff] at houter
  refine ⟨List.all_eq_true.mp hraw, fun c hc => ?_, ?_, ?_, hstart, hindicator, hdocument⟩
  · simpa using List.any_eq_false.mp hline c hc
  · intro hfirst
    rw [hfirst] at houter
    cases houter.1
  · intro hlast
    rw [hlast] at houter
    cases houter.2

namespace PlainSafe

variable {c : Char} {r : List Char}

/-- It does not start with an indicator. -/
theorem notMem_leading (h : PlainSafe (c :: r)) : c ∉ leadingIndicators := by
  have hstart := h.start
  rw [startsAsIndicator, Bool.or_eq_false_iff] at hstart
  intro hmem
  rw [List.contains_iff_mem.mpr hmem] at hstart
  cases hstart.1

/-- A sign at the front is no mark of an entry. -/
theorem blankFollows (h : PlainSafe (c :: r)) (hc : c = '?' ∨ c = ':' ∨ c = '-') :
    Style.blankFollows r = false := by
  have hstart := h.start
  rw [startsAsIndicator, Bool.or_eq_false_iff, Bool.and_eq_false_iff] at hstart
  refine hstart.2.resolve_left ?_
  rcases hc with rfl | rfl | rfl <;> decide

end PlainSafe

end Style

namespace Plain

open Style (holdsIndicator)

/-- A word of plain text ends at its blank, or where the text ends. -/
theorem run_append {a : Char} {w t : List Char} (hraw : Raw w) (hbreak : ∀ c ∈ w, isBreak c = false)
    (hindicator : holdsIndicator (a :: w) = false) (hstop : run false t = []) :
    run false (w ++ t) = w.takeWhile (· ≠ ' ') := by
  induction w generalizing a with
  | nil => exact hstop
  | cons c w ih =>
    obtain ⟨hc, hbreak⟩ := List.forall_mem_cons.mp hbreak
    obtain ⟨hrawc, hraw⟩ := List.forall_mem_cons.mp hraw
    rw [holdsIndicator, Bool.or_eq_false_iff, Bool.or_eq_false_iff] at hindicator
    obtain ⟨⟨hcolon, -⟩, hrest⟩ := hindicator
    rw [List.cons_append, run, isBlankOrBreak_of_isRaw hrawc, hc]
    by_cases hblank : c = ' '
    · simp [hblank]
    · have hfollows : (c = ':' && Style.blankFollows (w ++ t)) = false := by
        cases w with
        | nil =>
          have hne : c ≠ ':' := by simpa [Style.blankFollows] using hcolon
          simp [hne]
        | cons d w => exact hcolon
      have hword := ih hraw hbreak hrest
      simp [hblank, hword, hfollows]

/-- Blanks before more text stand for themselves. -/
theorem gap_blanks {m : Mark} {b r : List Char} (hb : ∀ c ∈ b, c = ' ') {d : Char}
    (hd : isRaw d = true) (hblank : d ≠ ' ') (hbreak : isBreak d = false) :
    gap ⟨m, b ++ d :: r⟩ = (b, false, ⟨m.pass b, d :: r⟩) := by
  have hraw : Raw b := fun c hc => (hb c hc) ▸ isRaw_blank
  have hspan : (⟨m, b ++ d :: r⟩ : Cursor).span (· = ' ') = (b, ⟨m.pass b, d :: r⟩) :=
    Cursor.span_append hraw (fun c hc => decide_eq_true (hb c hc)) (by simpa using hblank)
  have hline : (⟨m.pass b, d :: r⟩ : Cursor).lineBreak? = none :=
    Cursor.lineBreak?_of_head (by simpa using ⟨(ne_of_isRaw hd).1, hbreak⟩)
  simp only [gap, hspan, hline]

/-! ## Words -/

/-- A text is one word, or a word, blanks and more text. -/
theorem cut_word {w : List Char} (hlast : w.getLast? ≠ some ' ') :
    (∀ c ∈ w, c ≠ ' ') ∨ ∃ word b d v, w = word ++ (b ++ d :: v) ∧ (∀ c ∈ word, c ≠ ' ') ∧
      (∀ c ∈ b, c = ' ') ∧ b ≠ [] ∧ d ≠ ' ' := by
  obtain ⟨word, t, rfl, hword, ht⟩ := Text.exists_run (· ≠ ' ') w
  have hword' : ∀ c ∈ word, c ≠ ' ' := fun c hc => by simpa using hword c hc
  cases t with
  | nil => exact .inl (by simpa using hword')
  | cons e t =>
    obtain rfl : e = ' ' := by simpa using ht e rfl
    obtain ⟨b, rest, rfl, hb, hrest⟩ := Text.exists_run (· = ' ') t
    have hblanks : ∀ c ∈ ' ' :: b, c = ' ' :=
      List.forall_mem_cons.mpr ⟨rfl, fun c hc => by simpa using hb c hc⟩
    cases rest with
    | nil =>
      -- then the text would end with a blank
      refine absurd ?_ hlast
      rw [List.append_nil, List.getLast?_append,
        List.getLast?_eq_some_getLast (List.cons_ne_nil ' ' b), Option.some_or,
        hblanks _ (List.getLast_mem _)]
    | cons d v =>
      exact .inr ⟨word, ' ' :: b, d, v, rfl, hword', hblanks, List.cons_ne_nil _ _,
        by simpa using hrest d rfl⟩

/-- What the reader of a plain text relies on, `a` being the character before the text. -/
structure Readable (a : Char) (w : List Char) : Prop where
  raw : Raw w
  noBreak : ∀ c ∈ w, isBreak c = false
  indicator : holdsIndicator (a :: w) = false
  hash : w.head? ≠ some '#'
  first : w.head? ≠ some ' '
  last : w.getLast? ≠ some ' '

/-- What stands behind a word and blanks is readable as the whole text is. -/
theorem Readable.behind {a d : Char} {word b v : List Char} (h : Readable a (word ++ (b ++ d :: v)))
    (hb : ∀ c ∈ b, c = ' ') (hne : b ≠ []) (hd : d ≠ ' ') : Readable ' ' (d :: v) := by
  have hindicator : holdsIndicator (' ' :: (d :: v)) = false := by
    obtain ⟨b', e, rfl⟩ := List.eq_nil_or_concat b |>.resolve_left hne
    have he : e = ' ' := hb e (by simp)
    have hwhole := h.indicator
    rw [List.concat_eq_append, List.append_assoc, ← List.append_assoc word, he] at hwhole
    exact Style.holdsIndicator_suffix hwhole
  refine ⟨h.raw.right.right, fun c hc => ?_, hindicator, ?_, by simpa using hd, ?_⟩
  · exact h.noBreak c (List.mem_append_right word (List.mem_append_right b hc))
  · intro hhash
    obtain rfl : d = '#' := by simpa using hhash
    cases hindicator
  · have hlast := h.last
    rw [List.getLast?_append, List.getLast?_append,
      List.getLast?_eq_some_getLast (List.cons_ne_nil d v), Option.some_or, Option.some_or] at hlast
    rwa [List.getLast?_eq_some_getLast (List.cons_ne_nil d v)]

variable {t : List Char}

/-- The text `word` is what the reader takes at the front of `word ++ r`. -/
structure IsWord (word r : List Char) : Prop where
  raw : Raw word
  noBreak : ∀ c ∈ word, isBreak c = false
  nonempty : word ≠ []
  hash : word.head? ≠ some '#'
  read : run false (word ++ r) = word

/-- The part of a readable text up to a blank is a word. -/
theorem Readable.isWord {a : Char} {word r : List Char} (h : Readable a (word ++ r))
    (hstop : run false t = []) (hne : word ++ r ≠ []) (hword : ∀ c ∈ word, c ≠ ' ')
    (hr : ∀ c ∈ r.head?, c = ' ') : IsWord word (r ++ t) := by
  have hnonempty : word ≠ [] := by
    rintro rfl
    obtain ⟨c, r, rfl⟩ := List.exists_cons_of_ne_nil hne
    exact h.first (congrArg some (hr c rfl))
  refine ⟨h.raw.left, fun c hc => h.noBreak c (List.mem_append_left r hc), hnonempty, ?_, ?_⟩
  · have hhash := h.hash
    rw [List.head?_append, List.head?_eq_some_head hnonempty, Option.some_or] at hhash
    rwa [List.head?_eq_some_head hnonempty]
  · rw [← List.append_assoc, run_append h.raw h.noBreak h.indicator hstop]
    exact Text.takeWhile_append_of_stop (fun c hc => decide_eq_true (hword c hc))
      fun c hc => by simpa using hr c hc

/-- The text in front of `t` is made of words with blanks between them. -/
inductive Words (t : List Char) : List Char → Prop
  | last {word : List Char} (hword : IsWord word t) : Words t word
  | cons {word b v : List Char} {d : Char} (hword : IsWord word (b ++ d :: v ++ t))
      (hb : ∀ c ∈ b, c = ' ') (hne : b ≠ []) (hd : Readable ' ' (d :: v)) (rest : Words t (d :: v)) :
      Words t (word ++ (b ++ d :: v))

/-- A readable text is made of words. -/
theorem words_of_readable {a : Char} {w : List Char} (h : Readable a w) (hw : w ≠ [])
    (hstop : run false t = []) : Words t w := by
  induction hlength : w.length using Nat.strongRecOn generalizing a w with
  | ind n ih =>
    rcases cut_word h.last with hone | ⟨word, b, d, v, rfl, hword, hb, hne, hd⟩
    · rw [← List.append_nil w] at h hw
      exact .last (h.isWord hstop hw hone (by simp))
    · have hfirst : ∀ c ∈ (b ++ d :: v).head?, c = ' ' := by
        intro c hc
        rw [List.head?_append, List.head?_eq_some_head hne, Option.some_or] at hc
        exact hb c (List.mem_of_mem_head? (List.head?_eq_some_head hne ▸ hc))
      have hbehind := h.behind hb hne hd
      have hshorter : (d :: v).length < n := by
        have hpos := List.length_pos_iff.mpr hne
        rw [← hlength]
        simp only [List.length_append]
        omega
      exact .cons (h.isWord hstop hw hword hfirst) hb hne hbehind
        (ih _ hshorter hbehind (List.cons_ne_nil d v) rfl)

section Continuation

variable {indent : Int} {more : List Char} {passed : Bool} {next : Cursor}

/-- The reader takes a word; whether it goes on is told by what follows the word. -/
theorem continuation_word {word r blanks text : List Char} {m stop : Mark} {before : Bool} {fuel : Nat}
    (hword : IsWord word r) (hgap : gap ⟨m.pass word, r⟩ = (more, passed, next)) :
    continuation false indent (fuel + 1) blanks ⟨text, stop, before, ⟨m, word ++ r⟩⟩ =
      if more = [] ∨ next.peek = '#' ∨ (next.column : Int) < indent then
        ⟨text ++ blanks ++ word, m.pass word, passed, next⟩
      else continuation false indent fuel more ⟨text ++ blanks ++ word, m.pass word, passed, next⟩ := by
  have hpeek : (⟨m, word ++ r⟩ : Cursor).peek ≠ '#' := by
    obtain ⟨c, w, rfl⟩ := List.exists_cons_of_ne_nil hword.nonempty
    exact fun hc => hword.hash (congrArg some hc)
  have hnonempty : word.isEmpty = false := List.isEmpty_eq_false_iff.mpr hword.nonempty
  rw [continuation]
  simp only [if_neg hpeek, hword.read, hnonempty, Bool.false_eq_true, if_false,
    Cursor.forward_append hword.raw, hgap, Bool.not_false, Bool.true_and, Bool.or_eq_true,
    decide_eq_true_eq, List.isEmpty_iff, or_assoc]

/-- The words of a plain text are read one after the other, until what follows ends the scalar. -/
theorem continuation_eq {w blanks text : List Char} {m stop : Mark} {before : Bool} {fuel : Nat}
    (hw : Words t w) (hcolumn : indent ≤ m.column + 1) (hfuel : w.length < fuel)
    (hgap : gap ⟨m.pass w, t⟩ = (more, passed, next))
    (hend : more = [] ∨ next.peek = '#' ∨ (next.column : Int) < indent) :
    continuation false indent fuel blanks ⟨text, stop, before, ⟨m, w ++ t⟩⟩ =
      ⟨text ++ blanks ++ w, m.pass w, passed, next⟩ := by
  induction hw generalizing fuel blanks text m stop before with
  | last hword =>
    obtain ⟨fuel, rfl⟩ := Nat.exists_eq_succ_of_ne_zero (Nat.ne_zero_of_lt hfuel)
    rw [continuation_word hword hgap, if_pos hend]
  | @cons word b v d hword hb hne hd _ ih =>
    obtain ⟨fuel, rfl⟩ := Nat.exists_eq_succ_of_ne_zero (Nat.ne_zero_of_lt hfuel)
    have hdhash : d ≠ '#' := by simpa using hd.hash
    have hdblank : d ≠ ' ' := by simpa using hd.first
    have hbetween : gap ⟨m.pass word, b ++ d :: v ++ t⟩ =
        (b, false, ⟨m.pass (word ++ b), d :: (v ++ t)⟩) := by
      rw [List.append_assoc, List.cons_append, Mark.pass_append]
      exact gap_blanks hb (hd.raw d List.mem_cons_self) hdblank (hd.noBreak d List.mem_cons_self)
    have hpos : 0 < word.length ∧ 0 < b.length :=
      ⟨List.length_pos_iff.mpr hword.nonempty, List.length_pos_iff.mpr hne⟩
    have hcolumn' : indent ≤ (m.pass (word ++ b)).column := by
      have hraw : Raw b := fun c hc => (hb c hc) ▸ isRaw_blank
      have hpass : (m.pass (word ++ b)).column = m.column + (word ++ b).length := by
        rw [Mark.pass_of_no_break (hword.raw.append hraw)]
        intro e he
        rcases List.mem_append.mp he with he | he
        · exact hword.noBreak e he
        · rw [hb e he]
          rfl
      rw [hpass, List.length_append]
      omega
    -- none of the three ends holds between two words, so the reader goes on behind the blanks
    have hgo : ¬ (b = [] ∨ (⟨m.pass (word ++ b), d :: (v ++ t)⟩ : Cursor).peek = '#' ∨
        ((⟨m.pass (word ++ b), d :: (v ++ t)⟩ : Cursor).column : Int) < indent) := by
      rintro (hnil | hpeek | hless)
      · exact hne hnil
      · exact hdhash hpeek
      · exact absurd hcolumn' (Int.not_le.mpr hless)
    have hpass : (m.pass (word ++ b)).pass (d :: v) = m.pass (word ++ (b ++ d :: v)) := by
      rw [← Mark.pass_append, List.append_assoc]
    have hfuel' : (d :: v).length < fuel := by
      simp only [List.length_append] at hfuel
      omega
    have hrest : continuation false indent fuel b
        ⟨text ++ blanks ++ word, m.pass word, false, ⟨m.pass (word ++ b), d :: v ++ t⟩⟩ =
        ⟨text ++ blanks ++ word ++ b ++ (d :: v), (m.pass (word ++ b)).pass (d :: v), passed, next⟩ :=
      ih (by omega) hfuel' (by rw [hpass]; exact hgap)
    rw [List.append_assoc word, continuation_word hword hbetween, if_neg hgo]
    refine hrest.trans ?_
    rw [hpass, List.append_assoc (text ++ blanks ++ word), List.append_assoc (text ++ blanks)]

end Continuation

/-! ## What ends a plain scalar -/

variable {m : Mark} {r : List Char}

/-- A line break ends a run. -/
theorem run_break (flow : Bool) : run flow ('\n' :: r) = [] := by
  rw [run]
  rfl

/-- So does a colon with a blank behind it. -/
theorem run_colon (h : Style.blankFollows r = true) : run false (':' :: r) = [] := by
  rw [run, h]
  rfl

/-- In front of a colon there is no gap. -/
theorem gap_colon : gap ⟨m, ':' :: r⟩ = ([], false, ⟨m, ':' :: r⟩) :=
  gap_blanks (b := []) (by simp) (by decide) (by decide) (by decide)

/-- A line break before the next token. -/
theorem gap_break {k : Nat} (hr : Cursor.StartsToken r)
    (hseparator : ∀ m, (⟨m, List.replicate k ' ' ++ r⟩ : Cursor).atSeparator = false) :
    gap ⟨m, '\n' :: (List.replicate k ' ' ++ r)⟩ =
      ([' '], true, ⟨m.pass ('\n' :: List.replicate k ' '), r⟩) := by
  have hspan : (⟨m, '\n' :: (List.replicate k ' ' ++ r)⟩ : Cursor).span (· = ' ')
      = ([], ⟨m, '\n' :: (List.replicate k ' ' ++ r)⟩) :=
    Cursor.span_append (u := []) (by simp [Raw]) (by simp) (by simp)
  have hline : (⟨m, '\n' :: (List.replicate k ' ' ++ r)⟩ : Cursor).lineBreak?
      = some ('\n', ⟨m.pass ['\n'], List.replicate k ' ' ++ r⟩) :=
    Cursor.lineBreak?_cons (by decide) (by decide)
  have hbreaks : gapBreaks (List.replicate k ' ' ++ r).length ⟨m.pass ['\n'], List.replicate k ' ' ++ r⟩
      = (some [], ⟨m.pass ('\n' :: List.replicate k ' '), r⟩) := by
    have hpass : (m.pass ['\n']).pass (List.replicate k ' ') = m.pass ('\n' :: List.replicate k ' ') := rfl
    cases hlength : (List.replicate k ' ' ++ r).length with
    | zero =>
      obtain ⟨hk, rfl⟩ := List.append_eq_nil_iff.mp (List.length_eq_zero_iff.mp hlength)
      rw [hk, gapBreaks]
      rfl
    | succ n =>
      rw [gapBreaks, hr.skipBlanks, hpass]
      dsimp only
      rw [hr.lineBreak?]
  simp only [gap, hspan, hline, hseparator, Bool.false_eq_true, if_false, hbreaks]
  rfl

/-- A mark between documents on the next line. -/
theorem gap_separator (hseparator : ∀ m, (⟨m, r⟩ : Cursor).atSeparator = true) :
    gap ⟨m, '\n' :: r⟩ = ([], true, ⟨m.pass ['\n'], r⟩) := by
  have hspan : (⟨m, '\n' :: r⟩ : Cursor).span (· = ' ') = ([], ⟨m, '\n' :: r⟩) :=
    Cursor.span_append (u := []) (by simp [Raw]) (by simp) (by simp)
  have hline : (⟨m, '\n' :: r⟩ : Cursor).lineBreak? = some ('\n', ⟨m.pass ['\n'], r⟩) :=
    Cursor.lineBreak?_cons (by decide) (by decide)
  simp only [gap, hspan, hline, hseparator, if_true]

end Plain

open Plain in
/-- A text of plain style is read whole, if what follows it ends a plain scalar. -/
theorem plainToken_eq {cs t more : List Char} {m : Mark} {indent : Int} {passed : Bool} {next : Cursor}
    (hne : cs ≠ []) (hsafe : Style.PlainSafe cs) (hcolumn : indent ≤ m.column + 1)
    (hstop : run false t = []) (hgap : gap ⟨m.pass cs, t⟩ = (more, passed, next))
    (hend : more = [] ∨ next.peek = '#' ∨ (next.column : Int) < indent) :
    plainToken false indent ⟨m, cs ++ t⟩ = (⟨.scalar cs true, m, m.pass cs⟩, passed, next) := by
  obtain ⟨c, r, rfl⟩ := List.exists_cons_of_ne_nil hne
  have hhash : c ≠ '#' := by
    rintro rfl
    exact hsafe.notMem_leading (by decide)
  have hcolon : (c = ':' && Style.blankFollows r) = false := by
    by_cases hc : c = ':'
    · rw [hsafe.blankFollows (.inr (.inl hc)), Bool.and_false]
    · simp [hc]
  have hindicator : Style.holdsIndicator ('x' :: c :: r) = false := by
    rw [Style.holdsIndicator, hcolon, hsafe.indicator, decide_eq_false hhash]
    rfl
  have hreadable : Readable 'x' (c :: r) :=
    ⟨hsafe.raw, hsafe.noBreak, hindicator, by simpa using hhash, hsafe.first, hsafe.last⟩
  have hfuel : (c :: r).length < (c :: r ++ t).length + 1 := by
    rw [List.length_append]
    omega
  have hread : continuation false indent ((c :: r ++ t).length + 1) [] ⟨[], m, false, ⟨m, c :: r ++ t⟩⟩
      = ⟨[] ++ [] ++ (c :: r), m.pass (c :: r), passed, next⟩ :=
    continuation_eq (words_of_readable hreadable hne hstop) hcolumn hfuel hgap hend
  simp only [plainToken, hread]
  rfl

end DocDesk.Yaml
