import DocDesk.Proofs.Text.Parts
import DocDesk.Table.Csv
import Mathlib.Data.List.Basic

/-!
# Reading separated values back

A strict reader of records, after the grammar of RFC 4180: a field stands between quotes that are
doubled inside it, or holds no quote, delimiter or line break; a line end stands between two records
and none behind the last.  It gives back every field of a written table, although the writer takes line
breaks off the end of its text, since no record ends in a line break of its own.

Main statements: `readRecord_record` and `readRecords_write`.
-/

namespace DocDesk.Table

/-! ## Headers -/

/-- The texts are the keys in the order in which they first appear. -/
structure FirstSeen (keys texts : List String) : Prop where
  mem_iff : ∀ k, k ∈ texts ↔ k ∈ keys
  ordered : texts.Pairwise fun a b => keys.idxOf a < keys.idxOf b

namespace FirstSeen

variable {keys texts : List String} {k : String}

/-- Keys behind those already seen do not change the order of these. -/
theorem ordered_append (h : FirstSeen keys texts) (more : List String) :
    texts.Pairwise fun a b => (keys ++ more).idxOf a < (keys ++ more).idxOf b := by
  refine h.ordered.imp_of_mem fun ha hb hlt => ?_
  have ha' := (h.mem_iff _).mp ha
  have hb' := (h.mem_iff _).mp hb
  rwa [List.idxOf_append_of_mem ha', List.idxOf_append_of_mem hb']

/-- A key that was seen adds no header. -/
theorem add_known (h : FirstSeen keys texts) (hk : k ∈ texts) : FirstSeen (keys ++ [k]) texts where
  mem_iff a := by
    rw [List.mem_append, List.mem_singleton, ← h.mem_iff]
    constructor
    · exact .inl
    · rintro (ha | rfl)
      · exact ha
      · exact hk
  ordered := h.ordered_append [k]

/-- A key that was not seen adds one at the end. -/
theorem add_new (h : FirstSeen keys texts) (hk : k ∉ texts) :
    FirstSeen (keys ++ [k]) (texts ++ [k]) where
  mem_iff a := by rw [List.mem_append, List.mem_append, h.mem_iff]
  ordered := by
    have hkeys : k ∉ keys := fun hmem => hk ((h.mem_iff k).mpr hmem)
    refine List.pairwise_append.mpr ⟨h.ordered_append [k], List.pairwise_singleton _ _, ?_⟩
    intro a ha b hb
    rw [List.mem_singleton.mp hb, List.idxOf_append_of_mem ((h.mem_iff a).mp ha),
      List.idxOf_append_of_notMem hkeys, List.idxOf_cons_self]
    exact List.idxOf_lt_length_of_mem ((h.mem_iff a).mp ha)

end FirstSeen

/-- Adding the new ones of some keys keeps the order in which all were seen. -/
theorem firstSeen_addNew {seen texts keys : List String} (h : FirstSeen seen texts) :
    FirstSeen (seen ++ keys) (addNew texts keys) := by
  induction keys generalizing seen texts with
  | nil => simpa [addNew] using h
  | cons k ks ih =>
    -- the key moves from those to come to those already seen
    have hsplit : seen ++ k :: ks = seen ++ [k] ++ ks := by simp
    rw [hsplit]
    simp only [addNew, List.foldl_cons]
    split
    · next hk => exact ih (h.add_known hk)
    · next hk => exact ih (h.add_new hk)

/-- The headers of rows are their keys as they are first seen. -/
theorem firstSeen_headers (rs : List Entries) :
    FirstSeen (rs.flatMap fun r => r.map Prod.fst) (headers rs) :=
  @firstSeen_addNew [] [] _ ⟨fun _ => .rfl, .nil⟩

namespace Csv

/-! ## Reading records -/

/-- A character that may stand in a field without quotes. -/
def isBare (d c : Char) : Bool := c ≠ d && c ≠ '"' && c ≠ '\r' && c ≠ '\n'

/-- A field behind its opening quote, and the text behind its closing quote. -/
def readQuoted : List Char → Option (List Char × List Char)
  | [] => none
  | '"' :: '"' :: cs => (readQuoted cs).map fun p => ('"' :: p.1, p.2)
  | '"' :: cs => some ([], cs)
  | c :: cs => (readQuoted cs).map fun p => (c :: p.1, p.2)

/-- A field, and the text behind it. -/
def readField (d : Char) : List Char → Option (List Char × List Char)
  | '"' :: cs => readQuoted cs
  | cs => some (cs.takeWhile (isBare d), cs.dropWhile (isBare d))

/-- What is left behind a quoted text is no longer than the text was. -/
theorem readQuoted_le {cs f rest : List Char} (h : readQuoted cs = some (f, rest)) :
    rest.length ≤ cs.length := by
  fun_induction readQuoted cs generalizing f with
  | case1 => cases h
  | case2 cs ih =>
    obtain ⟨p, hp, heq⟩ := Option.map_eq_some_iff.mp h
    cases heq
    have := ih hp
    simp only [List.length_cons]
    omega
  | case3 cs =>
    cases h
    simp
  | case4 c cs _ _ ih =>
    obtain ⟨p, hp, heq⟩ := Option.map_eq_some_iff.mp h
    cases heq
    have := ih hp
    simp only [List.length_cons]
    omega

/-- So is what is left behind a field. -/
theorem readField_le {d : Char} {cs f rest : List Char} (h : readField d cs = some (f, rest)) :
    rest.length ≤ cs.length := by
  unfold readField at h
  split at h
  · have := readQuoted_le h
    simp only [List.length_cons]
    omega
  · cases h
    exact (List.dropWhile_suffix _).length_le

/-- Fields with a delimiter between each two, and the text behind them. -/
def readRecord (d : Char) (cs : List Char) : Option (List (List Char) × List Char) :=
  match _ : readField d cs with
  | none => none
  | some (f, []) => some ([f], [])
  | some (f, c :: rest) =>
    if c = d then (readRecord d rest).map fun p => (f :: p.1, p.2) else some ([f], c :: rest)
termination_by cs.length
decreasing_by
  have := readField_le ‹readField d cs = some _›
  simp only [List.length_cons] at this
  omega

/-- So is what is left behind a record. -/
theorem readRecord_le {d : Char} {cs rest : List Char} {fs : List (List Char)}
    (h : readRecord d cs = some (fs, rest)) : rest.length ≤ cs.length := by
  fun_induction readRecord d cs generalizing fs with
  | case1 => cases h
  | case2 cs f hf => cases h; simp
  | case3 cs f rest' hf ih =>
    obtain ⟨p, hp, heq⟩ := Option.map_eq_some_iff.mp h
    cases heq
    have hrest := ih hp
    have hfield := readField_le hf
    simp only [List.length_cons] at hfield
    omega
  | case4 cs f c rest' hf hc =>
    cases h
    exact readField_le hf

/-- Records with a line end between each two and nothing behind the last. -/
def readRecords (d : Char) (cs : List Char) : Option (List (List (List Char))) :=
  match _ : readRecord d cs with
  | some (r, []) => some [r]
  | some (r, '\r' :: '\n' :: rest) => (readRecords d rest).map (r :: ·)
  | _ => none
termination_by cs.length
decreasing_by
  have := readRecord_le ‹readRecord d cs = some _›
  simp only [List.length_cons] at this
  omega

/-! ## What is written is read back -/

section ReadBack

variable {d : Char} {f cs rest : List Char} {fs : List (List Char)}

/-- A text with its quotes doubled is read up to the quote behind it. -/
theorem readQuoted_flatMap (f : List Char) (hrest : rest.head? ≠ some '"') :
    readQuoted (f.flatMap quotedChar ++ '"' :: rest) = some (f, rest) := by
  induction f with
  | nil =>
    cases rest with
    | nil => rfl
    | cons c cs =>
      have hc : c ≠ '"' := fun e => hrest (congrArg some e)
      rw [List.flatMap_nil, List.nil_append, readQuoted.eq_3 _ (by simpa using hc)]
  | cons c f ih =>
    by_cases hc : c = '"'
    · subst hc
      simp [quotedChar, readQuoted, ih]
    · simp [quotedChar, hc, readQuoted, ih]

/-- A quoted field is read. -/
theorem readField_quoted (f : List Char) (hrest : rest.head? ≠ some '"') :
    readField d (quoted f ++ rest) = some (f, rest) := by
  have hcons : quoted f ++ rest = '"' :: (f.flatMap quotedChar ++ '"' :: rest) := by simp [quoted]
  rw [hcons, readField, readQuoted_flatMap f hrest]

/-- A field without quotes goes on up to what ends one. -/
theorem readField_bare (h : cs.head? ≠ some '"') :
    readField d cs = some (cs.takeWhile (isBare d), cs.dropWhile (isBare d)) := by
  unfold readField
  split
  · exact absurd rfl h
  · rfl

/-- A written field is read back where a delimiter, a line end or nothing follows. -/
theorem readField_field (f : List Char) (hd : d ≠ '"') (hrest : ∀ c ∈ rest.head?, c = d ∨ c = '\r') :
    readField d (field d f ++ rest) = some (f, rest) := by
  have hquote : rest.head? ≠ some '"' := by
    intro h
    rcases hrest _ h with e | e
    · exact hd e.symm
    · exact absurd e (by decide)
  by_cases hneeds : needsQuotes d f = true
  · rw [field, if_pos hneeds]
    exact readField_quoted f hquote
  · -- a field without quotes is a run of bare characters, and what follows it is none
    rw [Bool.not_eq_true] at hneeds
    have hbare : ∀ c ∈ f, isBare d c = true := by
      intro c hc
      have hplain := List.any_eq_false.mp hneeds c hc
      simpa [isBare, and_assoc] using hplain
    have hstop : ∀ c ∈ rest.head?, isBare d c = false := by
      intro c hc
      rcases hrest c hc with rfl | rfl <;> simp [isBare]
    have hhead : (f ++ rest).head? ≠ some '"' := by
      cases f with
      | nil => exact hquote
      | cons c f =>
        intro h
        cases h
        exact absurd (hbare '"' List.mem_cons_self) (by simp [isBare])
    rw [field_of_plain hneeds, readField_bare hhead, Text.takeWhile_append_of_stop hbare hstop,
      Text.dropWhile_append_of_stop hbare hstop]

/-- A field without a delimiter behind it is the last of its record. -/
theorem readRecord_of_last (h : readField d cs = some (f, rest)) (hrest : ∀ c ∈ rest.head?, c ≠ d) :
    readRecord d cs = some ([f], rest) := by
  unfold readRecord
  split
  · next hf => rw [h] at hf; cases hf
  · next hf => rw [h] at hf; cases hf; rfl
  · next c rest' hf =>
    rw [h] at hf
    cases hf
    rw [if_neg (hrest c rfl)]

/-- A field with a delimiter behind it is followed by the rest of its record. -/
theorem readRecord_of_more (h : readField d cs = some (f, d :: rest)) :
    readRecord d cs = (readRecord d rest).map fun p => (f :: p.1, p.2) := by
  rw [readRecord]
  split
  · next hf => rw [h] at hf; cases hf
  · next hf => rw [h] at hf; cases hf
  · next c rest' hf =>
    rw [h] at hf
    cases hf
    rw [if_pos rfl]

/-- Fields with delimiters between them are read as a record. -/
theorem readRecord_join (hd : d ≠ '"') (hcr : d ≠ '\r') (hfs : fs ≠ [])
    (hrest : ∀ c ∈ rest.head?, c = '\r') :
    readRecord d (Text.join [d] (fs.map (field d)) ++ rest) = some (fs, rest) := by
  -- on the fields: all but the last have a delimiter behind them
  induction fs with
  | nil => exact absurd rfl hfs
  | cons f fs ih =>
    cases fs with
    | nil =>
      refine readRecord_of_last (readField_field f hd fun c hc => .inr (hrest c hc)) ?_
      intro c hc
      rw [hrest c hc]
      exact hcr.symm
    | cons g gs =>
      have hjoin : Text.join [d] ((f :: g :: gs).map (field d)) ++ rest
          = field d f ++ d :: (Text.join [d] ((g :: gs).map (field d)) ++ rest) := by
        simp [Text.join]
      rw [hjoin, readRecord_of_more (readField_field f hd (by simp)), ih (by simp)]
      rfl

/-- A written record is read back where a line end or nothing follows. -/
theorem readRecord_record (hd : d ≠ '"') (hcr : d ≠ '\r') (hfs : fs ≠ [])
    (hrest : ∀ c ∈ rest.head?, c = '\r') : readRecord d (record d fs ++ rest) = some (fs, rest) := by
  unfold record
  split
  · -- one empty field, written as two quotes
    refine readRecord_of_last (readField_quoted [] ?_) ?_
    · intro h
      exact absurd (hrest _ h) (by decide)
    · intro c hc
      rw [hrest c hc]
      exact hcr.symm
  · exact readRecord_join hd hcr hfs hrest

/-- A record that has a field is written as some text. -/
theorem record_ne_nil (hd : d ≠ '"') (hcr : d ≠ '\r') (hfs : fs ≠ []) : record d fs ≠ [] := by
  intro hnil
  -- the empty text reads as one empty field, and that is written as two quotes
  have hread := @readRecord_record d [] fs hd hcr hfs (by simp)
  have hempty : readRecord d [] = some ([[]], []) := readRecord_of_last rfl (by simp)
  rw [hnil, List.nil_append, hempty] at hread
  cases hread
  cases hnil

/-- A record and its line end are read first, and the records behind them next. -/
theorem readRecords_line (hd : d ≠ '"') (hcr : d ≠ '\r') (hfs : fs ≠ []) (rest : List Char) :
    readRecords d (record d fs ++ lineEnd ++ rest) = (readRecords d rest).map (fs :: ·) := by
  have hread : readRecord d (record d fs ++ (lineEnd ++ rest)) = some (fs, '\r' :: '\n' :: rest) :=
    readRecord_record hd hcr hfs (by simp [lineEnd])
  rw [List.append_assoc, readRecords]
  split
  · next h => rw [hread] at h; cases h
  · next h => rw [hread] at h; cases h; rfl
  · next hno => exact absurd hread (hno _ _)

/-- A record at the end of the text is the last. -/
theorem readRecords_last (hd : d ≠ '"') (hcr : d ≠ '\r') (hfs : fs ≠ []) :
    readRecords d (record d fs) = some [fs] := by
  have hread := @readRecord_record d [] fs hd hcr hfs (by simp)
  rw [List.append_nil] at hread
  rw [readRecords]
  split
  · next h => rw [hread] at h; cases h; rfl
  · next h => rw [hread] at h; cases h
  · next hno _ => exact absurd hread (hno _)

/-- The text of records that all have their line end. -/
def lines (d : Char) (rs : List (List (List Char))) : List Char :=
  (rs.map fun r => record d r ++ lineEnd).flatten

/-- Lines and a last record without a line end are read back record by record. -/
theorem readRecords_lines (hd : d ≠ '"') (hcr : d ≠ '\r') {front : List (List (List Char))}
    (hfront : ∀ r ∈ front, r ≠ []) (hfs : fs ≠ []) :
    readRecords d (lines d front ++ record d fs) = some (front ++ [fs]) := by
  induction front with
  | nil => exact readRecords_last hd hcr hfs
  | cons r front ih =>
    have hcons : lines d (r :: front) = record d r ++ lineEnd ++ lines d front := rfl
    rw [hcons, List.append_assoc, readRecords_line hd hcr (hfront r List.mem_cons_self),
      ih fun r hr => hfront r (List.mem_cons_of_mem _ hr)]
    rfl

end ReadBack

/-! ## The end of a table -/

/-- A text that ends in no line break. -/
def Unbroken (cs : List Char) : Prop := ∀ c ∈ cs.getLast?, c ≠ '\r' ∧ c ≠ '\n'

section Ends

variable {d : Char} {fs : List (List Char)}

/-- Two texts without a break at their ends have none when they are joined. -/
theorem Unbroken.append {a b : List Char} (ha : Unbroken a) (hb : Unbroken b) : Unbroken (a ++ b) := by
  intro c hc
  cases hlast : b.getLast? with
  | none =>
    rw [List.getLast?_append, hlast, Option.none_or] at hc
    exact ha c hc
  | some e =>
    rw [List.getLast?_append, hlast, Option.some_or] at hc
    exact hb c (hlast.trans hc)

/-- A quoted field ends with a quote. -/
theorem unbroken_quoted (f : List Char) : Unbroken (quoted f) := by
  intro c hc
  rw [quoted, List.getLast?_concat] at hc
  cases hc
  decide

/-- A field does not end with a break. -/
theorem unbroken_field (f : List Char) : Unbroken (field d f) := by
  by_cases hneeds : needsQuotes d f = true
  · rw [field, if_pos hneeds]
    exact unbroken_quoted f
  · rw [Bool.not_eq_true] at hneeds
    rw [field_of_plain hneeds]
    intro c hc
    have hplain := List.any_eq_false.mp hneeds c (List.mem_of_getLast? hc)
    simp only [Bool.or_eq_true, decide_eq_true_eq, not_or] at hplain
    exact ⟨hplain.1.2, hplain.2⟩

/-- Nor do joined texts that do not. -/
theorem unbroken_join {sep : List Char} {parts : List (List Char)} (hsep : Unbroken sep)
    (hparts : ∀ part ∈ parts, Unbroken part) : Unbroken (Text.join sep parts) := by
  induction parts with
  | nil => simp [Unbroken, Text.join]
  | cons part parts ih =>
    have hfirst : Unbroken part := hparts part List.mem_cons_self
    cases parts with
    | nil => exact hfirst
    | cons next parts =>
      refine (hfirst.append hsep).append (ih fun q hq => ?_)
      exact hparts q (List.mem_cons_of_mem _ hq)

/-- No record ends in a line break: a field that holds one is quoted, and an empty last field stands
behind a delimiter or is a pair of quotes. -/
theorem unbroken_record (hcr : d ≠ '\r') (hlf : d ≠ '\n') (fs : List (List Char)) :
    Unbroken (record d fs) := by
  unfold record
  split
  · exact unbroken_quoted []
  · refine unbroken_join ?_ ?_
    · intro c hc
      cases hc
      exact ⟨hcr, hlf⟩
    · intro part hpart
      obtain ⟨f, -, rfl⟩ := List.mem_map.mp hpart
      exact unbroken_field f

/-- The line end behind such a text is all that is taken away. -/
theorem withoutLastBreaks_append_lineEnd {cs : List Char} (h : Unbroken cs) :
    withoutLastBreaks (cs ++ lineEnd) = cs := by
  have hbreaks : ∀ c ∈ lineEnd.reverse, (decide (c = '\r') || decide (c = '\n')) = true := by
    simp [lineEnd]
  have hstop : ∀ c ∈ cs.reverse.head?, (decide (c = '\r') || decide (c = '\n')) = false := by
    intro c hc
    rw [List.head?_reverse] at hc
    simp [h c hc]
  rw [withoutLastBreaks, List.reverse_append, Text.dropWhile_append_of_stop hbreaks hstop,
    List.reverse_reverse]

/-- Off the lines of a table only the last line end is taken. -/
theorem withoutLastBreaks_lines (hd : d ≠ '"') (hcr : d ≠ '\r') (hlf : d ≠ '\n') (hfs : fs ≠ [])
    (front : List (List (List Char))) :
    withoutLastBreaks (lines d (front ++ [fs])) = lines d front ++ record d fs := by
  have hlast : Unbroken (lines d front ++ record d fs) := by
    intro c hc
    have hsome := List.getLast?_eq_some_getLast (record_ne_nil hd hcr hfs)
    rw [List.getLast?_append, hsome, Option.some_or] at hc
    exact unbroken_record hcr hlf fs c (hsome.trans hc)
  rw [← withoutLastBreaks_append_lineEnd hlast]
  simp [lines]

/-- The lines of records that all have fields are read back once the last line end is off. -/
theorem readRecords_withoutLastBreaks (hd : d ∉ ['"', '\r', '\n']) {rs : List (List (List Char))}
    (hrs : rs ≠ []) (hfull : ∀ r ∈ rs, r ≠ []) :
    readRecords d (withoutLastBreaks (lines d rs)) = some rs := by
  simp only [List.mem_cons, List.not_mem_nil, or_false, not_or] at hd
  obtain ⟨hquote, hcr, hlf⟩ := hd
  -- the last record stands apart, since its line end is the one that is gone
  obtain ⟨front, last, rfl⟩ := (List.eq_nil_or_concat' rs).resolve_left hrs
  have hlast : last ≠ [] := hfull last (by simp)
  have hfront : ∀ r ∈ front, r ≠ [] := fun r hr => hfull r (List.mem_append_left _ hr)
  rw [withoutLastBreaks_lines hquote hcr hlf hlast, readRecords_lines hquote hcr hfront hlast]

end Ends

/-! ## Tables -/

section Tables

variable {options : Options} {d : Char} {v : Json}

/-- With a delimiter of one character the text is made of the lines of all records. -/
theorem write_of_delimiter (hdelim : options.delimiter = .str (String.singleton d)) :
    write options v
      = .ok (String.ofList (withoutLastBreaks (lines d (records v options.header options.flat)))) := by
  rw [write, hdelim, delimiterOf, String.toList_singleton]
  rfl

/-- Every record has a cell for each header. -/
theorem length_of_mem_records {header flat : Bool} {r : List (List Char)}
    (h : r ∈ records v header flat) : r.length = (headers (rows v flat)).length := by
  rcases List.mem_append.mp h with hr | hr
  · cases header with
    | true => rw [List.mem_singleton.mp hr, List.length_map]
    | false => cases hr
  · obtain ⟨row, -, rfl⟩ := List.mem_map.mp hr
    exact length_record _ row

/-- If there are headers there are records. -/
theorem records_ne_nil {header flat : Bool} (h : headers (rows v flat) ≠ []) :
    records v header flat ≠ [] := by
  intro hnil
  have hrows : rows v flat = [] := List.map_eq_nil_iff.mp (List.append_eq_nil_iff.mp hnil).2
  apply h
  rw [hrows]
  rfl

/-- The headers of a table are the keys of its rows, each once and as first seen.  A table that has
headers is written, and its text reads as the headers, if they are wanted, and a record for each row:
under each header the text of the row's value, nothing where it has none or null. -/
theorem readRecords_write (v : Json) (hdelim : options.delimiter = .str (String.singleton d))
    (hd : d ∉ ['"', '\r', '\n']) (hcolumns : headers (rows v options.flat) ≠ []) :
    let rs := rows v options.flat
    let hs := headers rs
    hs.Nodup ∧ FirstSeen (rs.flatMap fun row => row.map Prod.fst) hs ∧
      ∃ text table, write options v = .ok text ∧ readRecords d text.toList = some table ∧
        table = (if options.header then [hs.map String.toList] else []) ++
          (rs.map fun row => hs.map fun h => ((row.lookup h).map cell).getD []) ∧
        ∀ r ∈ table, r.length = hs.length := by
  intro rs hs
  have hfull : ∀ r ∈ records v options.header options.flat, r ≠ [] := by
    rintro r hr rfl
    exact hcolumns (List.length_eq_zero_iff.mp (length_of_mem_records hr).symm)
  refine ⟨headers_nodup rs, firstSeen_headers rs, _, records v options.header options.flat,
    write_of_delimiter hdelim, ?_, rfl, fun r hr => length_of_mem_records hr⟩
  rw [String.toList_ofList]
  exact readRecords_withoutLastBreaks hd (records_ne_nil hcolumns) hfull

/-- Rows with keys and values that need quotes, and with keys that others lack. -/
def raggedDocument : Json :=
  .arr [.obj [("a;b", .str "x\"y\r\n"), ("", .null)], .str ";", .obj [("", .str "\n")]]

/-- Names and cells with delimiters, quotes and breaks, in records that lack some of them. -/
theorem readRecords_write_ragged :
    Json.str ";" = .str (String.singleton ';') ∧ ';' ∉ ['"', '\r', '\n'] ∧
      headers (rows raggedDocument false) = ["a;b", "", "value"] ∧
      write ⟨.str ";", true, false⟩ raggedDocument
        = .ok "\"a;b\";;value\r\n\"x\"\"y\r\n\";;\r\n;;\";\"\r\n;\"\n\";" ∧
      ∃ text table, write ⟨.str ";", true, false⟩ raggedDocument = .ok text ∧
        readRecords ';' text.toList = some table ∧
        table = ["a;b".toList, [], "value".toList] ::
          [["x\"y\r\n".toList, [], []], [[], [], [';']], [[], ['\n'], []]] := by
  have hheaders : headers (rows raggedDocument false) = ["a;b", "", "value"] := by decide +kernel
  have hcolumns : headers (rows raggedDocument false) ≠ [] := by simp [hheaders]
  have hread := @readRecords_write ⟨.str ";", true, false⟩ ';' raggedDocument rfl (by decide) hcolumns
  obtain ⟨-, -, text, table, htext, htable, heq, -⟩ := hread
  refine ⟨rfl, by decide, hheaders, ?_, text, table, htext, htable, ?_⟩
  · decide +kernel
  · rw [heq]
    decide +kernel

end Tables

end Csv

end DocDesk.Table
