import DocDesk.Text.Blank
import DocDesk.Text.Split

/-!
# Runs, strips and parts of a text

What a reader relies on when it cuts a text: a run of one class of characters stops where the class
ends, a strip takes blanks off and leaves none at the ends, and a text cut at a separator is the
join of parts without it.

Main statements: `strip_split`, `trimmed_strip` and `splitAt_join`.
-/

namespace DocDesk.Text

/-! ## Checks of every element -/

/-- What a test of all elements says. -/
theorem forall_mem_of_all {α : Type} {P : α → Prop} [DecidablePred P] {l : List α}
    (h : (l.all fun a => decide (P a)) = true) : ∀ a ∈ l, P a := fun a ha =>
  of_decide_eq_true (List.all_eq_true.mp h a ha)

/-! ## Runs -/

section Runs

variable {α : Type} {p : α → Bool} {a r : List α}

/-- A run of a class ends where the next character is outside the class. -/
theorem takeWhile_append_of_stop (ha : ∀ c ∈ a, p c = true) (hr : ∀ c ∈ r.head?, p c = false) :
    (a ++ r).takeWhile p = a := by
  rw [List.takeWhile_append_of_pos ha]
  cases r with
  | nil => simp
  | cons c r => simp [hr c rfl]

/-- What follows a run starts outside its class. -/
theorem dropWhile_append_of_stop (ha : ∀ c ∈ a, p c = true) (hr : ∀ c ∈ r.head?, p c = false) :
    (a ++ r).dropWhile p = r := by
  rw [List.dropWhile_append_of_pos ha]
  cases r with
  | nil => rfl
  | cons c r => simp [hr c rfl]

/-- What is taken passes the test. -/
theorem of_mem_takeWhile {c : α} {cs : List α} (h : c ∈ cs.takeWhile p) : p c = true :=
  List.all_eq_true.mp List.all_takeWhile c h

/-- What is left starts with something that does not. -/
theorem head?_dropWhile {c : α} {cs : List α} (h : c ∈ (cs.dropWhile p).head?) : p c = false := by
  have hnot := List.head?_dropWhile_not p cs
  rw [Option.mem_def.mp h] at hnot
  simpa using hnot

/-- A text starts with a run of a class, possibly empty, and goes on outside the class. -/
theorem exists_run (p : α → Bool) (cs : List α) :
    ∃ u v, cs = u ++ v ∧ (∀ c ∈ u, p c = true) ∧ ∀ c ∈ v.head?, p c = false :=
  ⟨cs.takeWhile p, cs.dropWhile p, List.takeWhile_append_dropWhile.symm,
    fun _ h => of_mem_takeWhile h, fun _ h => head?_dropWhile h⟩

end Runs

/-! ## Blanks and strips -/

/-- A text of blanks alone, possibly empty. -/
def Blanks (cs : List Char) : Prop := ∀ c ∈ cs, isBlank c = true

/-- Nothing is blank. -/
theorem Blanks.nil : Blanks [] := by simp [Blanks]

/-- Among blanks there is nothing else. -/
theorem Blanks.notMem {cs : List Char} {c : Char} (h : Blanks cs) (hc : isBlank c = false) :
    c ∉ cs := by
  intro hmem
  rw [h c hmem] at hc
  cases hc

/-- A text without a blank at its front. -/
def Flush (cs : List Char) : Prop := ∀ c ∈ cs.head?, isBlank c = false

/-- A text without a blank at its back. -/
def FlushBack (cs : List Char) : Prop := ∀ c ∈ cs.getLast?, isBlank c = false

/-- A text without a blank at either end. -/
def Trimmed (cs : List Char) : Prop := Flush cs ∧ FlushBack cs

/-- A text is flush if its first character is no blank. -/
theorem Flush.cons {c : Char} (h : isBlank c = false) (cs : List Char) : Flush (c :: cs) := by
  simpa [Flush] using h

/-- It is flush at its end if its last character is none. -/
theorem FlushBack.concat {c : Char} (h : isBlank c = false) (cs : List Char) :
    FlushBack (cs ++ [c]) := by
  simpa [FlushBack] using h

/-- The back of a text is that of its last part. -/
theorem flushBack_append {a b : List Char} (hb : b ≠ []) : FlushBack (a ++ b) ↔ FlushBack b := by
  rw [FlushBack, FlushBack, List.getLast?_append, List.getLast?_eq_some_getLast hb, Option.some_or]

/-- A digit is no blank. -/
theorem isBlank_of_isDigit {c : Char} (h : c.isDigit = true) : isBlank c = false := by
  simp only [Char.isDigit, Bool.and_eq_true, decide_eq_true_eq] at h
  have h48 : 48 ≤ c.toNat := h.1
  have h57 : c.toNat ≤ 57 := h.2
  simp [isBlank]
  omega

/-- Blanks in front of a flush text are taken away. -/
theorem stripFront_append {u r : List Char} (hu : Blanks u) (hr : Flush r) :
    stripFront (u ++ r) = r :=
  dropWhile_append_of_stop hu hr

/-- What is left is flush. -/
theorem flush_stripFront (cs : List Char) : Flush (stripFront cs) :=
  fun _ h => head?_dropWhile h

/-- Taking the blanks off the front splits them off. -/
theorem stripFront_split (cs : List Char) : ∃ u, Blanks u ∧ cs = u ++ stripFront cs :=
  ⟨cs.takeWhile isBlank, fun _ h => of_mem_takeWhile h, List.takeWhile_append_dropWhile.symm⟩

/-- Taking the blanks off the back splits them off. -/
theorem stripBack_split (cs : List Char) : ∃ v, Blanks v ∧ cs = stripBack cs ++ v := by
  obtain ⟨u, hu, hcs⟩ := stripFront_split cs.reverse
  refine ⟨u.reverse, fun c hc => hu c (List.mem_reverse.mp hc), ?_⟩
  have hrev := congrArg List.reverse hcs
  rwa [List.reverse_reverse, List.reverse_append] at hrev

/-- The same at the end. -/
theorem flushBack_stripBack (cs : List Char) : FlushBack (stripBack cs) := by
  intro c hc
  rw [stripBack, List.getLast?_reverse] at hc
  exact head?_dropWhile hc

/-- From a trimmed text nothing is taken away. -/
theorem strip_of_trimmed {cs : List Char} (h : Trimmed cs) : strip cs = cs :=
  strip_of_head_last h.1 h.2

/-- What a strip leaves has no blank at its ends. -/
theorem trimmed_strip (cs : List Char) : Trimmed (strip cs) := by
  refine ⟨?_, flushBack_stripBack _⟩
  obtain ⟨v, -, hv⟩ := stripBack_split (stripFront cs)
  intro c hc
  have hfront := flush_stripFront cs
  rw [hv] at hfront
  refine hfront c ?_
  rw [strip] at hc
  simp [Option.mem_def.mp hc]

/-- A text is stripped once. -/
theorem strip_strip (cs : List Char) : strip (strip cs) = strip cs :=
  strip_of_trimmed (trimmed_strip cs)

/-- The same for strings. -/
theorem stripped_stripped (s : String) : stripped (stripped s) = stripped s := by
  rw [stripped, stripped, String.toList_ofList, strip_strip]

/-- A strip takes blanks off both ends and nothing else. -/
theorem strip_split (cs : List Char) :
    ∃ u v, Blanks u ∧ Blanks v ∧ cs = u ++ strip cs ++ v := by
  obtain ⟨u, hu, hcs⟩ := stripFront_split cs
  obtain ⟨v, hv, hback⟩ := stripBack_split (stripFront cs)
  refine ⟨u, v, hu, hv, ?_⟩
  rw [List.append_assoc, strip, ← hback]
  exact hcs

/-- Blanks put around a text without any at its ends are what a strip takes off. -/
theorem strip_append_of_trimmed {u t v : List Char} (hu : Blanks u) (ht : Trimmed t) (hne : t ≠ [])
    (hv : Blanks v) : strip (u ++ t ++ v) = t := by
  have hfront : Flush (t ++ v) := by
    intro c hc
    rw [List.head?_append, List.head?_eq_some_head hne, Option.some_or] at hc
    exact ht.1 c (List.head?_eq_some_head hne ▸ hc)
  have hback : Flush t.reverse := by
    intro c hc
    rw [List.head?_reverse] at hc
    exact ht.2 c hc
  have hblanks : Blanks v.reverse := fun c hc => hv c (List.mem_reverse.mp hc)
  rw [strip, List.append_assoc, stripFront_append hu hfront, stripBack, List.reverse_append]
  have hstrip := stripFront_append hblanks hback
  rw [stripFront] at hstrip
  rw [hstrip, List.reverse_reverse]

/-- A strip takes nothing off a back without a blank. -/
theorem strip_split_of_flushBack {cs : List Char} (h : FlushBack cs) :
    ∃ u, Blanks u ∧ cs = u ++ strip cs := by
  obtain ⟨u, v, hu, hv, hcs⟩ := strip_split cs
  cases hlast : v.getLast? with
  | none =>
    rw [List.getLast?_eq_none_iff.mp hlast, List.append_nil] at hcs
    exact ⟨u, hu, hcs⟩
  | some c =>
    have hblank := hv c (List.mem_of_getLast? hlast)
    rw [h c (by rw [hcs, List.getLast?_append, hlast]; rfl)] at hblank
    cases hblank

/-- Behind a text without blanks at its ends, only the back of what follows matters. -/
theorem Trimmed.append {a b : List Char} (ha : Trimmed a) (hne : a ≠ []) (hb : FlushBack b) :
    Trimmed (a ++ b) := by
  constructor
  · intro c hc
    rw [List.head?_append, List.head?_eq_some_head hne, Option.some_or] at hc
    exact ha.1 c (List.head?_eq_some_head hne ▸ hc)
  · by_cases hnil : b = []
    · rw [hnil, List.append_nil]
      exact ha.2
    · exact (flushBack_append hnil).mpr hb

/-- A text that starts with a character other than a blank is not stripped to nothing. -/
theorem strip_cons_ne_nil {c : Char} {cs : List Char} (h : isBlank c = false) :
    strip (c :: cs) ≠ [] := by
  intro he
  obtain ⟨u, v, hu, hv, hcs⟩ := strip_split (c :: cs)
  rw [he, List.append_nil] at hcs
  have hmem : c ∈ u ++ v := hcs ▸ List.mem_cons_self
  rcases List.mem_append.mp hmem with hc | hc
  · simp [hu c hc] at h
  · simp [hv c hc] at h

/-! ## Parts -/

/-- Cutting takes every separator out. -/
theorem notMem_of_mem_splitAt {sep : Char} {cs part : List Char} (h : part ∈ splitAt sep cs) :
    sep ∉ part := by
  induction cs generalizing part with
  | nil => simp_all [splitAt]
  | cons c cs ih =>
    by_cases hc : c = sep
    · simp only [splitAt, hc, ↓reduceIte, List.mem_cons] at h
      rcases h with rfl | h
      · simp
      · exact ih h
    · -- any other character goes to the front of the first part
      cases hs : splitAt sep cs with
      | nil => exact absurd hs (splitAt_ne_nil sep cs)
      | cons first parts =>
        rw [hs] at ih
        simp only [splitAt, hc, ↓reduceIte, hs, List.mem_cons] at h
        rcases h with rfl | h
        · simp only [List.mem_cons, not_or]
          exact ⟨fun e => hc e.symm, ih List.mem_cons_self⟩
        · exact ih (List.mem_cons_of_mem _ h)

/-- Every character of a part is one of the text. -/
theorem mem_of_mem_splitAt {sep c : Char} {cs part : List Char} (h : part ∈ splitAt sep cs)
    (hc : c ∈ part) : c ∈ cs := by
  have hmem : ∀ {parts : List (List Char)}, part ∈ parts → c ∈ join [sep] parts := by
    intro parts hp
    induction parts with
    | nil => simp at hp
    | cons q qs ih =>
      cases qs with
      | nil => simp_all [join]
      | cons q' qs =>
        rcases List.mem_cons.mp hp with rfl | hp
        · simp [join, hc]
        · simp [join, ih hp]
  simpa [join_splitAt] using hmem h

/-- Parts without the separator are what their join is cut into. -/
theorem splitAt_join {sep : Char} {parts : List (List Char)} (hne : parts ≠ [])
    (h : ∀ part ∈ parts, sep ∉ part) : splitAt sep (join [sep] parts) = parts := by
  induction parts with
  | nil => exact absurd rfl hne
  | cons q qs ih =>
    have hq : sep ∉ q := h q List.mem_cons_self
    cases qs with
    | nil => exact splitAt_of_notMem hq
    | cons q' qs =>
      rw [join, List.append_assoc, List.singleton_append, splitAt_append hq]
      · rw [ih (by simp) fun part hp => h part (List.mem_cons_of_mem _ hp)]
      · simp

/-- The parts of two texts with a separator between them are those of the one and of the other. -/
theorem splitAt_append_sep (sep : Char) (cs ds : List Char) :
    splitAt sep (cs ++ sep :: ds) = splitAt sep cs ++ splitAt sep ds := by
  induction cs with
  | nil => simp [splitAt]
  | cons c cs ih =>
    rw [List.cons_append, splitAt, splitAt, ih]
    split
    · rfl
    · cases hs : splitAt sep cs with
      | nil => exact absurd hs (splitAt_ne_nil sep cs)
      | cons part parts => rfl

/-- The last part of a join stands behind a separator, if there are others. -/
theorem join_concat {sep : List Char} {parts : List (List Char)} (hne : parts ≠ [])
    (last : List Char) : join sep (parts ++ [last]) = join sep parts ++ sep ++ last := by
  induction parts with
  | nil => exact absurd rfl hne
  | cons part parts ih =>
    cases parts with
    | nil => simp [join]
    | cons next parts =>
      have hrest := ih (by simp)
      simp only [List.cons_append] at hrest ⊢
      simp only [join, hrest, List.append_assoc]

/-- A join holds the separator and the characters of its parts. -/
theorem mem_join {sep c : Char} {parts : List (List Char)} (h : c ∈ join [sep] parts) :
    c = sep ∨ ∃ part ∈ parts, c ∈ part := by
  induction parts with
  | nil => simp [join] at h
  | cons q qs ih =>
    cases qs with
    | nil => exact .inr ⟨q, by simp, by simpa [join] using h⟩
    | cons q' qs =>
      simp only [join, List.append_assoc, List.mem_append, List.mem_singleton] at h
      rcases h with h | h | h
      · exact .inr ⟨q, List.mem_cons_self, h⟩
      · exact .inl h
      · rcases ih h with h | ⟨part, hp, hc⟩
        · exact .inl h
        · exact .inr ⟨part, List.mem_cons_of_mem _ hp, hc⟩

end DocDesk.Text
