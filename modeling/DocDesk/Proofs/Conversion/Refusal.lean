import DocDesk.Panel.Convert
import DocDesk.Proofs.Yaml.Unfit

/-!
# Refused conversions

A conversion that writes no text refuses its input: there is nothing to convert, the text is not of its
format, or the delimiter is not one character.  There are two exceptions.  The fault of YAML text without a
JSON document is passed on as it is, and the panel tells it only if it is about the input.  Nor is it a
refusal that a document is nested deeper than YAML is written or read.

Main statement: `run_refuses`.
-/

namespace DocDesk

namespace Conversion

/-- Options with texts for the indentation of XML and the delimiter of separated values. -/
structure Options.Textual (options : Options) : Prop where
  xmlIndent : ∃ s, options.xml.indent = .str s
  delimiter : ∃ s, options.csv.delimiter = .str s

/-- A fault by which a conversion refuses its input. -/
inductive Fault.IsRefusal : Fault → Prop
  | nothing : IsRefusal .nothing
  | json (e : Json.ParseError) : IsRefusal (.json e)
  | yaml {cs : List Char} {f : Yaml.Fault} : (∀ g, f ≠ .value g) → IsRefusal (.yaml cs f)
  | delimiter : IsRefusal (.csv .notOneCharacter)

/-- A fault of the nesting, which is no refusal. -/
inductive Fault.IsNesting : Fault → Prop
  | reading {cs : List Char} : IsNesting (.yaml cs (.value .tooDeep))
  | writing (e : Nesting.Exceeded) : IsNesting (.nesting e)

/-- A refusal is about the input, so that it is told. -/
theorem Fault.IsRefusal.isAboutInput {f : Fault} (h : f.IsRefusal) : f.isAboutInput = true := by
  cases h with
  | nothing | json _ | delimiter => rfl
  | @yaml cs f hvalue =>
    cases f with
    | value g => exact absurd rfl (hvalue g)
    | unacceptable | malformed => rfl

/-- Writing fails with a refusal, except that YAML is not written of a document that is nested too deep. -/
theorem write_refuses {options : Options} (h : options.Textual) {c : Conversion} (v : Json)
    (hc : c ≠ .yamlToJson) :
    FailsWith (fun f => f.IsRefusal ∨ c = .jsonToYaml ∧ Yaml.Writer.depthLimit < v.depth ∧ f = .nesting {})
      (c.write options v) := by
  obtain ⟨⟨unit, hunit⟩, ⟨delimiter, hdelimiter⟩⟩ := h
  cases c with
  | yamlToJson => exact absurd rfl hc
  | jsonToYaml =>
    rw [write_jsonToYaml]
    split
    · next hdeep => exact .error (.inr ⟨rfl, hdeep, rfl⟩)
    · exact .ok
  | jsonToXml =>
    rw [write, Xml.write, hunit]
    exact .ok
  | jsonToCsv =>
    rw [write, Table.Csv.write, hdelimiter, Table.Csv.delimiterOf]
    split
    · exact .ok
    · exact .error (.inl .delimiter)

/-- A text is nested too deep for a conversion: as YAML for one that reads it, as a JSON document for one
that writes it as YAML. -/
def TooDeep (c : Conversion) (s : String) : Prop :=
  match c with
  | .yamlToJson => Yaml.TooDeep s.toList
  | .jsonToYaml => ∃ v, Json.parse s = .ok v ∧ Yaml.Writer.depthLimit < v.depth
  | .jsonToXml | .jsonToCsv => False

/-- How a conversion of a text ends: with a text, with a refusal, or, for YAML text without a JSON document,
with the fault of a value; for a text that is nested too deep, with neither. -/
inductive Ends (c : Conversion) (s : String) : Except Fault String → Prop
  | written {t : String} : ¬ c.TooDeep s → (c = .yamlToJson → ∀ f, ¬Yaml.Unfit s.toList f) →
      Ends c s (.ok t)
  | refused {f : Fault} : f.IsRefusal → Ends c s (.error f)
  | unfit {f : Yaml.ValueFault} : c = .yamlToJson → Yaml.Unfit s.toList f →
      Ends c s (.error (.yaml s.toList (.value f)))
  | tooDeep {f : Fault} : c.TooDeep s → f.IsNesting → Ends c s (.error f)

/-- YAML text ends as JSON text, or is refused for a reason it has. -/
theorem ends_yamlText (layout : Json.Layout) (s : String) : Ends .yamlToJson s (yamlText layout s) := by
  rw [yamlText]
  cases hread : Yaml.read s with
  | ok v =>
    obtain ⟨hdepth, hfit⟩ := Yaml.not_unfit_of_readChars hread
    exact .written hdepth fun _ => hfit
  | error f =>
    cases f with
    | value g =>
      rcases Yaml.unfit_of_readChars hread with ⟨hdeep, rfl⟩ | hunfit
      · exact .tooDeep hdeep .reading
      · exact .unfit rfl hunfit
    | unacceptable | malformed => exact .refused (.yaml nofun)

/-- A document that YAML is written of is not nested too deep. -/
theorem not_tooDeep_of_write {options : Options} {c : Conversion} {s t : String} {v : Json}
    (hc : c ≠ .yamlToJson) (hparse : Json.parse s = .ok v) (hwrite : c.write options v = .ok t) :
    ¬ c.TooDeep s := by
  cases c with
  | yamlToJson => exact absurd rfl hc
  | jsonToXml | jsonToCsv => exact id
  | jsonToYaml =>
    rintro ⟨w, hw, hdeep⟩
    cases hparse.symm.trans hw
    rw [write_jsonToYaml, if_pos hdeep] at hwrite
    cases hwrite

/-- Every conversion ends with a text or for such a reason. -/
theorem ends_run {options : Options} (htextual : options.Textual) (c : Conversion) (text : Option String) :
    Ends c (text.getD "") (c.run options text) := by
  rw [run]
  split
  · exact .refused .nothing
  split
  · next hyaml =>
    subst hyaml
    exact ends_yamlText _ _
  next hjson =>
  split
  · exact .refused (.json _)
  · next v hv =>
    cases hwrite : c.write options v with
    | ok t => exact .written (not_tooDeep_of_write hjson hv hwrite) fun hyaml => absurd hyaml hjson
    | error f =>
      rcases write_refuses htextual v hjson f hwrite with hrefusal | ⟨rfl, hdeep, rfl⟩
      · exact .refused hrefusal
      · exact .tooDeep ⟨v, hv, hdeep⟩ (.writing _)

/-- What the panel makes of a conversion: a reply, unless the conversion fails with a fault that is not told. -/
theorem convert_of_run {c : Conversion} {options : Options} {text : Option String} {label : Json}
    {form : Panel.ConvertForm} (hlabel : ofChoice label = .ok c) (hform : form.options = .ok options) :
    Panel.convert text label form =
      match c.run options text with
      | .ok t => .ok ⟨t, "Converted " ++ c.label ++ "."⟩
      | .error f =>
        if f.isAboutInput then .ok ⟨"", "Error during conversion: " ++ f.message⟩
        else .error (.conversion f) := by
  have hconverted : Panel.convertForm text label form = (do
      let output ← (c.run options text).mapError .conversion
      .ok ⟨output, "Converted " ++ c.label ++ "."⟩) := by
    rw [Panel.convertForm, hlabel, hform]
    rfl
  rw [Panel.convert, hconverted]
  cases c.run options text with
  | ok t => rfl
  | error f => rfl

end Conversion

end DocDesk
