import DocDesk.Proofs.Yaml.Quoted.Basic

/-!
# Double-quoted texts read back

Between double quotes every character is written as itself or as an escape, so any text is read back.

Main statement: `quotedToken_doubleQuoted`.
-/

namespace DocDesk.Yaml

/-! ## Hexadecimal digits -/

section Hex

/-- The digit of a number below sixteen. -/
def upperDigit (d : Nat) : Char := (Nat.digitChar d).toUpper

/-- The sixteen digits are read as digits. -/
theorem isHexDigit_upperDigit : ∀ d < 16, isHexDigit (upperDigit d) = true := by decide

/-- They may stand as they are. -/
theorem isRaw_upperDigit : ∀ d < 16, isRaw (upperDigit d) = true := by decide

/-- None of them is a break. -/
theorem isBreak_upperDigit : ∀ d < 16, isBreak (upperDigit d) = false := by decide

/-- Each has its value. -/
theorem hexValue_upperDigit : ∀ d < 16, hexValue [upperDigit d] = d := by decide

/-- A last digit counts once, and those before it sixteen times. -/
theorem hexValue_concat (cs : List Char) (c : Char) :
    hexValue (cs ++ [c]) = hexValue cs * 16 + hexValue [c] := by
  simp only [hexValue, List.foldl_append, List.foldl_cons, List.foldl_nil, Nat.zero_mul, Nat.zero_add]

/-- Zeros in front do not count. -/
theorem hexValue_zeros (k : Nat) (cs : List Char) :
    hexValue (List.replicate k '0' ++ cs) = hexValue cs := by
  induction k with
  | zero => rfl
  | succ k ih => exact ih

/-- The digits of a number have its value. -/
theorem hexValue_toDigits (n : Nat) : hexValue ((Nat.toDigits 16 n).map Char.toUpper) = n := by
  induction n using Nat.strongRecOn with
  | ind n ih =>
    by_cases hn : n < 16
    · rw [Nat.toDigits_of_lt_base hn]
      exact hexValue_upperDigit n hn
    · have hdigit := hexValue_upperDigit (n % 16) (Nat.mod_lt n (by decide))
      rw [Nat.toDigits_of_base_le (by decide) (Nat.le_of_not_lt hn), List.map_append, List.map_singleton,
        hexValue_concat, ih (n / 16) (by omega), ← upperDigit, hdigit, Nat.div_add_mod']

/-- The digits of a number are among the sixteen. -/
theorem exists_upperDigit_of_mem_toDigits {n : Nat} {c : Char} (hc : c ∈ Nat.toDigits 16 n) :
    ∃ d < 16, c = Nat.digitChar d := by
  induction n using Nat.strongRecOn with
  | ind n ih =>
    by_cases hn : n < 16
    · rw [Nat.toDigits_of_lt_base hn, List.mem_singleton] at hc
      exact ⟨n, hn, hc⟩
    · rw [Nat.toDigits_of_base_le (by decide) (Nat.le_of_not_lt hn), List.mem_append,
        List.mem_singleton] at hc
      rcases hc with hc | hc
      · exact ih (n / 16) (by omega) hc
      · exact ⟨n % 16, Nat.mod_lt n (by decide), hc⟩

open Style (upperHex)

variable {width n : Nat}

/-- The same where the number is filled up with zeros. -/
theorem exists_upperDigit_of_mem {c : Char} (hc : c ∈ upperHex width n) :
    ∃ d < 16, c = upperDigit d := by
  obtain ⟨e, he, rfl⟩ := List.mem_map.mp hc
  rcases List.mem_append.mp he with he | he
  · exact ⟨0, by decide, by rw [List.eq_of_mem_replicate he]; rfl⟩
  · obtain ⟨d, hd, rfl⟩ := exists_upperDigit_of_mem_toDigits he
    exact ⟨d, hd, rfl⟩

/-- A number is the value of its digits. -/
theorem hexValue_upperHex : hexValue (upperHex width n) = n := by
  have hzero : Char.toUpper '0' = '0' := rfl
  rw [upperHex, Text.hexText, List.map_append, List.map_replicate, hzero, hexValue_zeros,
    hexValue_toDigits]

/-- A number that is not too large fills its width. -/
theorem length_upperHex (hwidth : 0 < width) (hn : n < 16 ^ width) :
    (upperHex width n).length = width := by
  have hle := (Nat.length_toDigits_le_iff (by decide) hwidth).mpr hn
  rw [upperHex, List.length_map, Text.hexText, List.length_append, List.length_replicate]
  omega

end Hex

namespace Quoted

open Style (doubleQuotedChar doubleQuoted isDoubleSafe shortEscapes upperHex)

variable {since m : Mark} {r : List Char} {c : Char}

/-! ## Characters -/

/-- What needs no escape may stand as it is, and is no break. -/
theorem isRaw_of_isDoubleSafe (h : isDoubleSafe c = true) : isRaw c = true ∧ isBreak c = false := by
  have hbreak : isBreak c = false := by
    rw [isBreak, Bool.or_eq_false_iff, Bool.or_eq_false_iff, Bool.or_eq_false_iff]
    refine ⟨⟨⟨?_, ?_⟩, ?_⟩, ?_⟩
    all_goals
      refine decide_eq_false ?_
      rintro rfl
      revert h
      decide
  have hmark : c.toNat ≠ 0xFEFF := by
    intro hc
    obtain rfl : c = '\uFEFF' := Char.toNat_inj.mp hc
    revert h
    decide
  refine ⟨?_, hbreak⟩
  simp only [isDoubleSafe, isRaw, Bool.and_eq_true, Bool.or_eq_true, decide_eq_true_eq] at h ⊢
  omega

/-- Except for a blank and a single quote no such character starts a gap. -/
theorem isGapStart_of_isDoubleSafe (h : isDoubleSafe c = true) (hquote : c ≠ '\'') (hblank : c ≠ ' ') :
    isGapStart c = false := by
  obtain ⟨hraw, hbreak⟩ := isRaw_of_isDoubleSafe h
  rw [isGapStart_of_isRaw hraw, hbreak]
  simp only [isDoubleSafe, Bool.and_eq_true, decide_eq_true_eq] at h
  simp [hquote, hblank, h.1.1.1.1.1, h.1.1.1.1.2]

/-- The characters ahead are those of the text. -/
theorem map_peekAt (u : List Char) :
    (List.range u.length).map (⟨m, u ++ r⟩ : Cursor).peekAt = u := by
  refine List.ext_getElem (by simp) fun i hi hu => ?_
  simp [Cursor.peekAt, List.getElem?_append, hu]

/-- The code point of a character is that of a character. -/
theorem charOf_toNat (c : Char) : charOf c.toNat = .ok c := by
  have hvalid : c.toNat.isValidChar := c.valid
  rw [charOf, dif_pos hvalid]
  exact congrArg Except.ok (Char.ext UInt32.ofNat_toNat)

/-- A numbered escape is read as its character. -/
theorem escape_numbered {letter : Char} {width : Nat} (hwidth : 0 < width)
    (hnone : escapes.lookup letter = none) (hdigits : escapeDigits.lookup letter = some width)
    (hraw : isRaw letter = true) (hc : c.toNat < 16 ^ width) :
    escape since ⟨m, letter :: (upperHex width c.toNat ++ r)⟩ =
      .ok ([c], ⟨m.pass (letter :: upperHex width c.toNat), r⟩) := by
  have hlength := length_upperHex hwidth hc
  have hpeek : (⟨m, letter :: (upperHex width c.toNat ++ r)⟩ : Cursor).peek = letter := rfl
  have hshown := @map_peekAt (m.pass [letter]) r (upperHex width c.toNat)
  have hhex : ∀ ch ∈ upperHex width c.toNat, isRaw ch = true ∧ isHexDigit ch = true := by
    intro ch hch
    obtain ⟨d, hd, rfl⟩ := exists_upperDigit_of_mem hch
    exact ⟨isRaw_upperDigit d hd, isHexDigit_upperDigit d hd⟩
  have hfind : (upperHex width c.toNat).find? (fun ch => !isHexDigit ch) = none := by
    rw [List.find?_eq_none]
    intro ch hch
    simp [(hhex ch hch).2]
  have hforward := @Cursor.forward_append (m.pass [letter]) r (upperHex width c.toNat)
    fun ch hch => (hhex ch hch).1
  rw [hlength] at hshown hforward
  have hnumber : numberedEscape since width ⟨m.pass [letter], upperHex width c.toNat ++ r⟩ =
      .ok (c, ⟨(m.pass [letter]).pass (upperHex width c.toNat), r⟩) := by
    rw [numberedEscape, hshown]
    dsimp only
    rw [hfind, hexValue_upperHex, charOf_toNat, hforward]
    rfl
  rw [escape, hpeek, hnone, hdigits]
  dsimp only
  rw [Cursor.advance_cons hraw, hnumber]
  rfl

/-- A short escape is read as its character. -/
theorem escape_short {e : Char} (h : (c, e) ∈ shortEscapes) :
    escape since ⟨m, e :: r⟩ = .ok ([c], ⟨m.pass [e], r⟩) := by
  have hlookup : escapes.lookup e = some c := escapes_of_short (c, e) h
  have hraw : ∀ p ∈ shortEscapes, isRaw p.2 = true := by decide
  have hpeek : (⟨m, e :: r⟩ : Cursor).peek = e := rfl
  rw [escape, hpeek, hlookup]
  dsimp only
  rw [Cursor.advance_cons (hraw (c, e) h)]

/-- A character that is not held as it is is written as an escape, which is read back. -/
theorem exists_escape (hsafe : isDoubleSafe c = false) :
    ∃ e, doubleQuotedChar c = '\\' :: e ∧ (∀ ch ∈ e, isRaw ch = true ∧ isBreak ch = false) ∧
      ∀ since m r, escape since ⟨m, e ++ r⟩ = .ok ([c], ⟨m.pass e, r⟩) := by
  have hhex : ∀ letter width, isRaw letter = true ∧ isBreak letter = false →
      ∀ ch ∈ letter :: upperHex width c.toNat, isRaw ch = true ∧ isBreak ch = false := by
    intro letter width hletter
    refine List.forall_mem_cons.mpr ⟨hletter, fun ch hch => ?_⟩
    obtain ⟨d, hd, rfl⟩ := exists_upperDigit_of_mem hch
    exact ⟨isRaw_upperDigit d hd, isBreak_upperDigit d hd⟩
  have hvalid : c.toNat < 16 ^ 8 := by
    have hlt : c.toNat.isValidChar := c.valid
    rcases hlt with h | h <;> omega
  rw [doubleQuotedChar, hsafe, if_neg Bool.false_ne_true]
  cases hlookup : shortEscapes.lookup c with
  | some e =>
    have hmem : (c, e) ∈ shortEscapes := by
      obtain ⟨front, behind, hcut, -⟩ := List.lookup_eq_some_iff.mp hlookup
      rw [hcut]
      exact List.mem_append_right _ List.mem_cons_self
    have hraw : ∀ p ∈ shortEscapes, isRaw p.2 = true ∧ isBreak p.2 = false := by decide
    refine ⟨[e], rfl, ?_, fun since m r => escape_short hmem⟩
    intro ch hch
    rw [List.mem_singleton.mp hch]
    exact hraw (c, e) hmem
  | none =>
    dsimp only
    split
    · exact ⟨'x' :: upperHex 2 c.toNat, rfl, hhex 'x' 2 (by decide), fun since m r =>
        escape_numbered (by decide) rfl rfl (by decide) (by omega)⟩
    split
    · exact ⟨'u' :: upperHex 4 c.toNat, rfl, hhex 'u' 4 (by decide), fun since m r =>
        escape_numbered (by decide) rfl rfl (by decide) (by omega)⟩
    · exact ⟨'U' :: upperHex 8 c.toNat, rfl, hhex 'U' 8 (by decide), fun since m r =>
        escape_numbered (by decide) rfl rfl (by decide) hvalid⟩

/-- A written character needs no further escape and stays on its line. -/
theorem isRaw_of_mem_doubleQuotedChar {d : Char} (hd : d ∈ doubleQuotedChar c) :
    isRaw d = true ∧ isBreak d = false := by
  by_cases hsafe : isDoubleSafe c = true
  · rw [Style.doubleQuotedChar_of_plain hsafe, List.mem_singleton] at hd
    rw [hd]
    exact isRaw_of_isDoubleSafe hsafe
  · obtain ⟨e, hchar, he, -⟩ := exists_escape (Bool.eq_false_iff.mpr hsafe)
    rw [hchar] at hd
    rcases List.mem_cons.mp hd with rfl | hd
    · decide
    · exact he d hd

/-- A character other than a blank is read from its written form. -/
theorem readsChar_doubleQuotedChar (hblank : c ≠ ' ') : ReadsChar true (doubleQuotedChar c) c := by
  intro since m r fuel
  by_cases hsafe : isDoubleSafe c = true
  · have hraw := (isRaw_of_isDoubleSafe hsafe).1
    rw [Style.doubleQuotedChar_of_plain hsafe, List.singleton_append]
    by_cases hquote : c = '\''
    · exact ⟨fuel, Nat.le_refl _, solid_other hraw (by rw [hquote]; rfl) (by simp [hquote])⟩
    · exact ⟨fuel + 1, Nat.le_succ _, solid_cons hraw (isGapStart_of_isDoubleSafe hsafe hquote hblank)⟩
  · obtain ⟨e, hchar, -, hescape⟩ := exists_escape (Bool.eq_false_iff.mpr hsafe)
    refine ⟨fuel, Nat.le_refl _, ?_⟩
    rw [hchar, List.cons_append, solid_escape (hescape _ _ _)]
    rfl

/-! ## Texts -/

/-- Blanks need no escape. -/
theorem flatMap_blanks {b : List Char} (hb : ∀ c ∈ b, c = ' ') : b.flatMap doubleQuotedChar = b := by
  induction b with
  | nil => rfl
  | cons c b ih =>
    obtain ⟨rfl, hmore⟩ := List.forall_mem_cons.mp hb
    rw [List.flatMap_cons, ih hmore, Style.doubleQuotedChar_of_plain (by decide), List.singleton_append]

/-- Every character is written. -/
theorem doubleQuotedChar_ne_nil (c : Char) : doubleQuotedChar c ≠ [] := by
  by_cases hsafe : isDoubleSafe c = true
  · rw [Style.doubleQuotedChar_of_plain hsafe]
    exact List.cons_ne_nil _ _
  · obtain ⟨e, hchar, -⟩ := exists_escape (Bool.eq_false_iff.mpr hsafe)
    rw [hchar]
    exact List.cons_ne_nil _ _

/-- The closing quote or a character that is no blank starts what is left to read. -/
theorem exists_isSolid_double {rest : List Char} (hhead : ∀ c ∈ rest.head?, c ≠ ' ') :
    ∃ d t, IsSolid d ∧ rest.flatMap doubleQuotedChar ++ '"' :: r = d :: t := by
  cases rest with
  | nil => exact ⟨'"', r, ⟨by decide, by decide, rfl⟩, rfl⟩
  | cons c rest =>
    have hblank : c ≠ ' ' := hhead c rfl
    obtain ⟨d, t, ht⟩ := List.exists_cons_of_ne_nil (doubleQuotedChar_ne_nil c)
    obtain ⟨hraw, hbreak⟩ := isRaw_of_mem_doubleQuotedChar (c := c) (d := d) (by rw [ht]; exact List.mem_cons_self)
    refine ⟨d, t ++ (rest.flatMap doubleQuotedChar ++ '"' :: r), ⟨hraw, ?_, hbreak⟩, ?_⟩
    · by_cases hsafe : isDoubleSafe c = true
      · rw [Style.doubleQuotedChar_of_plain hsafe] at ht
        cases ht
        exact hblank
      · obtain ⟨e, hchar, -⟩ := exists_escape (Bool.eq_false_iff.mpr hsafe)
        rw [hchar] at ht
        cases ht
        decide
    · rw [List.flatMap_cons, ht, List.append_assoc, List.cons_append]

/-- A word between double quotes is read up to what ends it. -/
theorem isWord_doubleQuotedChar {w : List Char} (hw : ∀ c ∈ w, c ≠ ' ') :
    IsWord true (w.flatMap doubleQuotedChar) w :=
  isWord_flatMap doubleQuotedChar_ne_nil fun c hc => readsChar_doubleQuotedChar (hw c hc)

/-- A text between double quotes is made of words with blanks between them. -/
theorem woven_flatMap (cs : List Char) : Woven true (cs.flatMap doubleQuotedChar) cs := by
  induction hlength : cs.length using Nat.strongRecOn generalizing cs with
  | ind n ih =>
    -- the first word, and the blanks behind it
    obtain ⟨w, t, rfl, hword, ht⟩ := Text.exists_run (· ≠ ' ') cs
    have hw : ∀ c ∈ w, c ≠ ' ' := fun c hc => by simpa using hword c hc
    cases t with
    | nil =>
      rw [List.append_nil]
      exact .word (isWord_doubleQuotedChar hw)
    | cons c t =>
      obtain rfl : c = ' ' := by simpa using ht c rfl
      obtain ⟨b, rest, rfl, hb, hrest⟩ := Text.exists_run (· = ' ') t
      have hblanks : ∀ d ∈ ' ' :: b, d = ' ' :=
        List.forall_mem_cons.mpr ⟨rfl, fun d hd => by simpa using hb d hd⟩
      have hnext : ∀ d ∈ rest.head?, d ≠ ' ' := fun d hd => by simpa using hrest d hd
      have hshorter : rest.length < n := by
        rw [← hlength]
        simp only [List.length_append, List.length_cons]
        omega
      rw [List.flatMap_append, ← List.cons_append, List.flatMap_append, flatMap_blanks hblanks]
      exact .cons (isWord_doubleQuotedChar hw) (by decide) (.inl rfl) (List.cons_ne_nil _ _)
        (fun since m d r hd => gap_blanks hd hblanks) (fun r => exists_isSolid_double hnext)
        (ih rest.length hshorter rest rfl)

/-- The closing quote stops a part. -/
theorem stops_closing_double : Stops true (closing true :: r) :=
  fun _ _ _ => solid_stop rfl (by decide) (fun _ => by decide) nofun

end Quoted

open Style (doubleQuotedChar doubleQuoted)

/-- What is written between double quotes may stand as it is, and has no break. -/
theorem Style.isRaw_of_mem_doubleQuoted {cs : List Char} {d : Char} (hd : d ∈ doubleQuoted cs) :
    isRaw d = true ∧ isBreak d = false := by
  rw [doubleQuoted, List.cons_append, List.mem_cons, List.mem_append, List.mem_singleton] at hd
  rcases hd with rfl | hd | rfl
  · decide
  · obtain ⟨c, -, hd⟩ := List.mem_flatMap.mp hd
    exact Quoted.isRaw_of_mem_doubleQuotedChar hd
  · decide

/-- A text between double quotes is read back. -/
theorem quotedToken_doubleQuoted (cs r : List Char) (m : Mark) :
    quotedToken true ⟨m, doubleQuoted cs ++ r⟩ =
      .ok (⟨.scalar cs false, m, m.pass (doubleQuoted cs)⟩, ⟨m.pass (doubleQuoted cs), r⟩) := by
  have hopen : (⟨m, doubleQuoted cs ++ r⟩ : Cursor).advance =
      ⟨m.pass ['"'], cs.flatMap doubleQuotedChar ++ '"' :: r⟩ := by
    rw [doubleQuoted, List.cons_append, List.cons_append, Cursor.advance_cons (by decide),
      List.append_assoc, List.singleton_append]
  have hlength : cs.length < (doubleQuoted cs ++ r).length + 1 := by
    have hle := Quoted.length_le_flatMap Quoted.doubleQuotedChar_ne_nil cs
    simp only [doubleQuoted, List.length_append, List.length_cons]
    omega
  have hclose : doubleQuoted cs = ['"'] ++ (cs.flatMap doubleQuotedChar ++ ['"']) := rfl
  have hbody : Quoted.body true m ((doubleQuoted cs ++ r).length + 1)
      ⟨m.pass ['"'], cs.flatMap doubleQuotedChar ++ '"' :: r⟩ =
      .ok (cs, ⟨(m.pass ['"']).pass (cs.flatMap doubleQuotedChar), '"' :: r⟩) :=
    Quoted.body_of_woven (Quoted.woven_flatMap cs) Quoted.stops_closing_double hlength
  simp only [quotedToken, hopen, hbody]
  dsimp only [bind, Except.bind]
  rw [Cursor.advance_cons (by decide), hclose, Mark.pass_append, Mark.pass_append]

end DocDesk.Yaml
