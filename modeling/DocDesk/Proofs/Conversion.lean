import DocDesk.Conversion
import DocDesk.Proofs.Json.RoundTrip
import DocDesk.Proofs.Text.Parts
import DocDesk.Proofs.Yaml.RoundTrip

/-!
# Conversions there and back

JSON text becomes YAML text and JSON text again, and the document is the same exactly if the styles of its
texts keep them.  One that is put between single quotes with the character U+0085 comes back changed, and
nothing comes back where a name grows too long for a key by the escapes in it.  A document nested too deep
does not become YAML text in the first place.

Main statement: `run_jsonToYaml_yamlToJson`.
-/

namespace DocDesk

/-! ## Blank texts -/

/-- A text with a character that is not blank is not blank. -/
theorem Text.isBlankText_eq_false {s : String} {c : Char} (hc : c ∈ s.toList)
    (hblank : isBlank c = false) : isBlankText s = false := by
  rw [isBlankText, List.isEmpty_eq_false_iff]
  intro hstrip
  obtain ⟨u, v, hu, hv, hs⟩ := strip_split s.toList
  rw [hs, hstrip, List.append_nil] at hc
  have hall : isBlank c = true := (List.mem_append.mp hc).elim (hu c) (hv c)
  rw [hblank] at hall
  cases hall

namespace Json.Reader

/-- No value starts with a blank. -/
theorem readScalar_blank {c : Char} {r : List Char} (hc : Text.isBlank c = true) :
    readScalar (c :: r) = .error (.malformed .expectingValue (r.length + 1)) := by
  -- every character that a scalar starts with is no blank, so none of the readers takes the first one
  have hne : ∀ {d : Char}, Text.isBlank d = false → d ≠ c := by
    rintro d hd rfl
    rw [hc] at hd
    cases hd
  have hword : readWord? (c :: r) = none := by
    have hn : 'n' ≠ c := hne (by decide)
    have ht : 't' ≠ c := hne (by decide)
    have hf : 'f' ≠ c := hne (by decide)
    have hN : 'N' ≠ c := hne (by decide)
    have hI : 'I' ≠ c := hne (by decide)
    have hminus : '-' ≠ c := hne (by decide)
    simp [readWord?, words, Text.after?, hn, ht, hf, hN, hI, hminus]
  have hsign : splitMinus (c :: r) = (false, c :: r) := by
    unfold splitMinus
    split
    · next heq => cases heq; exact absurd rfl (hne (d := '-') (by decide))
    · rfl
  have hdigit : c.isDigit = false := by
    refine Bool.eq_false_iff.mpr fun hd => ?_
    have hblank := Text.isBlank_of_isDigit hd
    rw [hc] at hblank
    cases hblank
  have hwhole : wholePart (c :: r) = ([], c :: r) := by
    unfold wholePart
    split
    · next heq => cases heq; exact absurd rfl (hne (d := '0') (by decide))
    · rw [List.takeWhile_cons_of_neg (by simp [hdigit]), List.dropWhile_cons_of_neg (by simp [hdigit])]
  rw [readScalar, hword, Option.getD_none, readNumber, hsign]
  dsimp only
  rw [hwhole]
  rfl

end Json.Reader

/-- A text that holds a document is not blank. -/
theorem Json.exists_notBlank_of_parse {s source : String} {v : Json} (h : parse s source = .ok v) :
    ∃ c ∈ s.toList, Text.isBlank c = false := by
  refine Classical.by_contradiction fun hnone => ?_
  have hall : ∀ c ∈ s.toList, Text.isBlank c = true := fun c hc =>
    Bool.of_not_eq_false fun hblank => hnone ⟨c, hc, hblank⟩
  -- the whole text is blank, and so is what is left of it behind the spaces of JSON
  have hread : ∃ f, Reader.readValue Reader.depthLimit (Reader.skip s.toList) = .error f := by
    have hskip : ∀ c ∈ Reader.skip s.toList, Text.isBlank c = true := fun c hc =>
      hall c ((List.dropWhile_suffix _).mem hc)
    cases hrest : Reader.skip s.toList with
    | nil => exact ⟨_, rfl⟩
    | cons c r =>
      have hc : Text.isBlank c = true := hskip c (hrest ▸ List.mem_cons_self)
      have hopener : c ∉ Reader.openers := by
        have hnot : ∀ d ∈ Reader.openers, Text.isBlank d = false :=
          Text.forall_mem_of_all (by decide)
        intro hmem
        rw [hnot c hmem] at hc
        cases hc
      rw [Reader.readValue_of_notMem hopener, Reader.readScalar_blank hc]
      exact ⟨_, rfl⟩
  obtain ⟨f, hf⟩ := hread
  have hdoc : ∀ v, Reader.readDocument s.toList ≠ .ok v := by
    intro v hv
    unfold Reader.readDocument at hv
    split at hv
    · cases hv
    · rw [hf] at hv
      cases hv
  unfold parse parseChars at h
  split at h
  · next hv => exact hdoc _ hv
  · cases h

namespace Yaml

open Writer

/-- A value on one line has a character that is not blank, if it is no plain scalar. -/
theorem exists_notBlank_inline {indent : Nat} {v : Json} {line : List Char}
    (h : inline? indent v = some line) (hplain : isPlainScalar v = false) :
    ∃ c ∈ line, Text.isBlank c = false := by
  match v with
  | .null | .bool _ | .int _ | .float _ => cases hplain
  | .str s =>
    cases h
    rw [Style.write]
    cases hchoice : Style.choose false s.toList with
    | plain =>
      have hnot : decide (Style.choose false s.toList = .plain) = false := hplain
      rw [hchoice] at hnot
      cases hnot
    | single => exact ⟨'\'', List.mem_cons_self, by decide⟩
    | double => exact ⟨'"', List.mem_cons_self, by decide⟩
  | .arr [] =>
    cases h
    exact ⟨'[', List.mem_cons_self, by decide⟩
  | .obj [] =>
    cases h
    exact ⟨'{', List.mem_cons_self, by decide⟩
  | .arr (_ :: _) | .obj (_ :: _) => cases h

/-- A member has a colon. -/
theorem colon_mem_member (step column : Nat) (name : List Char) (v : Json) (text : List Char) :
    ':' ∈ member step column name v text := by
  rw [member]
  split <;> simp

/-- A block has a character that is not blank. -/
theorem exists_notBlank_block {indent : Nat} {v : Json} (h : inline? indent v = none) (step column : Nat) :
    ∃ c ∈ block step column v, Text.isBlank c = false := by
  match v with
  | .null | .int _ | .float _ | .str _ | .arr [] | .obj [] => cases h
  | .bool b => cases b <;> cases h
  | .arr (w :: vs) =>
    rw [block]
    exact ⟨'-', List.mem_cons_self, by decide⟩
  | .obj ((name, w) :: ms) =>
    rw [block]
    exact ⟨':', List.mem_append_left _ (colon_mem_member ..), by decide⟩

/-- A written document is not blank: it has a quote, a bracket, the sign of an entry or the mark of its
end. -/
theorem exists_notBlank_document (step : Nat) (v : Json) :
    ∃ c ∈ document step v, Text.isBlank c = false := by
  rw [document]
  cases hline : inline? step v with
  | some line =>
    cases hplain : isPlainScalar v with
    | true => exact ⟨'.', by simp, by decide⟩
    | false =>
      obtain ⟨c, hc, hblank⟩ := exists_notBlank_inline hline hplain
      exact ⟨c, List.mem_append_left _ hc, hblank⟩
  | none =>
    obtain ⟨c, hc, hblank⟩ := exists_notBlank_block hline step 0
    exact ⟨c, List.mem_append_left _ hc, hblank⟩

end Yaml

namespace Conversion

/-- A text that is not blank is converted. -/
theorem run_of_notBlank {c : Conversion} {options : Options} {s : String} (h : Text.isBlankText s = false) :
    run c options (some s) =
      if c = .yamlToJson then yamlText options.layout s
      else match Json.parse s with
        | .error e => .error (.json e)
        | .ok v => c.write options v :=
  if_neg (by rw [Option.getD_some, h]; decide)

/-- The YAML text of a document is read. -/
theorem run_yamlToJson_write (v : Json) (indent : Int) (back : Options) :
    run .yamlToJson back (some (Yaml.write indent v)) = yamlText back.layout (Yaml.write indent v) := by
  obtain ⟨c, hc, hnot⟩ := Yaml.exists_notBlank_document (Yaml.Writer.stepOf indent) v
  have hwritten : c ∈ (Yaml.write indent v).toList := by
    rwa [Yaml.write, String.toList_ofList]
  rw [run_of_notBlank (Text.isBlankText_eq_false hwritten hnot), if_pos rfl]

/-- The JSON text that is made of the YAML text of a document holds the document again exactly if its texts
are kept. -/
theorem exists_yamlText_write_iff {v : Json} (hv : v.Representable) (hfinite : v.FiniteDoubles)
    (hdepth : v.depth ≤ Yaml.Node.depthLimit) (indent : Int) (back : Options) :
    (∃ s, yamlText back.layout (Yaml.write indent v) = .ok s ∧ Json.parse s = .ok v) ↔
      Yaml.TextsKept v := by
  rw [← Yaml.read_write_eq_self_iff hv hfinite hdepth indent, yamlText]
  by_cases hfits : Yaml.NamesFit v
  · have hparse := Json.parse_render_of_finite (Yaml.representable_readBack hv)
      (Yaml.finiteDoubles_readBack hfinite) back.indent
    rw [Yaml.read_write hv hfinite hfits hdepth, Except.ok.injEq]
    constructor
    · rintro ⟨s, hs, hsame⟩
      cases hs
      exact Except.ok.inj (hparse.symm.trans hsame)
    · intro hsame
      exact ⟨_, rfl, hparse.trans (congrArg Except.ok hsame)⟩
  · have hread := Yaml.read_write_ne_ok hfinite hfits indent
    refine iff_of_false ?_ (hread v)
    rintro ⟨s, hs, -⟩
    split at hs
    · next w hw => exact hread w hw
    · cases hs

/-- JSON text of a document that is nested no deeper than YAML is written can be converted to YAML text.  If
all doubles are finite, that text can be converted to JSON text with the same document, the same values in
the same order, exactly if all texts are kept.  A document nested deeper is not converted. -/
theorem run_jsonToYaml_yamlToJson {t : String} {v : Json} (ht : Json.parse t = .ok v)
    (there back : Options) :
    (v.depth ≤ Yaml.Writer.depthLimit → ∃ y, run .jsonToYaml there (some t) = .ok y ∧
      (v.FiniteDoubles →
        ((∃ s, run .yamlToJson back (some y) = .ok s ∧ Json.parse s = .ok v) ↔ Yaml.TextsKept v))) ∧
    (Yaml.Writer.depthLimit < v.depth → run .jsonToYaml there (some t) = .error (.nesting {})) := by
  obtain ⟨c, hc, hblank⟩ := Json.exists_notBlank_of_parse ht
  have hrun : run .jsonToYaml there (some t) = write .jsonToYaml there v := by
    rw [run_of_notBlank (Text.isBlankText_eq_false hc hblank), if_neg (by decide), ht]
  rw [hrun, write_jsonToYaml]
  refine ⟨fun hdepth => ?_, fun hdeep => if_pos hdeep⟩
  rw [if_neg (Nat.not_lt.mpr hdepth)]
  refine ⟨_, rfl, fun hfinite => ?_⟩
  -- YAML is read deeper than it is written
  have hreach : Yaml.Writer.depthLimit ≤ Yaml.Node.depthLimit := by decide
  rw [run_yamlToJson_write]
  exact exists_yamlText_write_iff (Json.representable_of_parse ht) hfinite (Nat.le_trans hdepth hreach) _ back

/-- Texts that look like other things, a text over several lines, a name with a tab and nested arrays all
come back. -/
theorem run_jsonToYaml_yamlToJson_texts :
    let v : Json := .obj [("yes", .arr [.arr [.str "1e3", .str "null"], .int (-12)]),
      ("a\tb", .str " one\n\ntwo: #3\n"), ("", .obj [("- x", .float (.finite true ⟨0, by decide⟩))])]
    Json.parse (v.render .line) = .ok v ∧ v.depth ≤ Yaml.Writer.depthLimit ∧ v.FiniteDoubles ∧
      Yaml.TextsKept v ∧ ∃ y s, run .jsonToYaml { indent := some 4 } (some (v.render .line)) = .ok y ∧
        run .yamlToJson {} (some y) = .ok s ∧ Json.parse s = .ok v := by
  intro v
  have hfinite : v.FiniteDoubles := by decide
  have hkept : Yaml.TextsKept v := by decide +kernel
  have hparse : Json.parse (v.render .line) = .ok v := Json.parse_render_of_finite (by decide) hfinite none
  have hdepth : v.depth ≤ Yaml.Writer.depthLimit := by decide
  obtain ⟨y, hy, hback⟩ := (run_jsonToYaml_yamlToJson hparse { indent := some 4 } {}).1 hdepth
  obtain ⟨s, hs, hsame⟩ := (hback hfinite).mpr hkept
  exact ⟨hparse, hdepth, hfinite, hkept, y, s, hy, hs, hsame⟩

/-- The next-line character comes back as a blank. -/
theorem run_yamlToJson_nextLine :
    let v : Json := .str "a\u0085b"
    let t := "\"a\u0085b\""
    Json.parse t = .ok v ∧ v.FiniteDoubles ∧ ∃ y s, run .jsonToYaml {} (some t) = .ok y ∧
      run .yamlToJson {} (some y) = .ok s ∧ ¬ Json.parse s = .ok v := by
  intro v t
  have hfinite : v.FiniteDoubles := by decide
  have htext : v.render .line = t := by decide
  have hparse : Json.parse t = .ok v := htext ▸ Json.parse_render_of_finite (by decide) hfinite none
  have hother : (Json.str "a b").render .line = "\"a b\"" := by decide
  have hread : Json.parse "\"a b\"" = .ok (.str "a b") :=
    hother ▸ Json.parse_render_of_finite (by decide) (by decide) none
  refine ⟨hparse, hfinite, "'a\u0085  b'\n", "\"a b\"", ?_, ?_, ?_⟩
  · have hwrite : Yaml.write 2 v = "'a\u0085  b'\n" := by decide +kernel
    rw [run_of_notBlank (by decide), if_neg (by decide), hparse]
    exact congrArg Except.ok hwrite
  · have hrun : (run .yamlToJson {} (some "'a\u0085  b'\n")).toOption = some "\"a b\"" := by
      decide +kernel
    cases hresult : run .yamlToJson {} (some "'a\u0085  b'\n") with
    | ok s =>
      rw [hresult] at hrun
      exact congrArg Except.ok (Option.some.inj hrun)
    | error f =>
      rw [hresult] at hrun
      cases hrun
  · rw [hread]
    intro heq
    exact absurd heq (by simp [v])

end Conversion

end DocDesk
