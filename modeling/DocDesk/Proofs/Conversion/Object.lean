import DocDesk.Conversion
import DocDesk.Proofs.Json.RoundTrip
import DocDesk.Proofs.Yaml.Origin

/-!
# Objects written from YAML text

A YAML document is written as JSON text in which every object comes from a mapping.  The text is read
back if all its numbers have a value.  It has one member for each key of a mapping exactly if keys of one
member are written alike and others are not: the keys `1` and `true` are of one member and are written
differently, and the keys `1` and `"1"` are of two members and are written alike.

Main statement: `run_yamlToJson_objects`.
-/

namespace DocDesk

/-- The JSON document that a YAML text becomes, with a relation between the keys of its mappings and the
names of their objects. -/
inductive Yaml.ComesFrom (R : List Value → List String → Prop) (cs : List Char) : Json → Prop
  | empty : Node.ofStream (.ofChars cs) = .ok none → ComesFrom R cs .null
  | document {root : Node} {v : Json} : Node.ofStream (.ofChars cs) = .ok (some root) →
      root.valuate.Becomes R v → ComesFrom R cs v

/-- A document that is read comes from its nodes, and its integers are short. -/
theorem Yaml.comesFrom_of_read {s : String} {v : Json} (h : Yaml.read s = .ok v) :
    ComesFrom Valued.ApartIff s.toList v ∧ v.ShortIntegers := by
  rcases exists_of_readChars h with ⟨hdocument, rfl⟩ | ⟨root, x, hdocument, hx, hv, -⟩
  · exact ⟨.empty hdocument, .scalar rfl trivial⟩
  · exact ⟨.document hdocument (Valued.becomes_valuate hx hv), Value.shortIntegers_of_toJson hv⟩

namespace Conversion

/-- A text that is converted from YAML holds a document. -/
theorem exists_read_of_run {options : Options} {text : Option String} {t : String}
    (h : run .yamlToJson options text = .ok t) :
    ∃ v, Yaml.read (text.getD "") = .ok v ∧ t = v.render options.layout := by
  unfold run at h
  dsimp only at h
  split at h
  · cases h
  · rw [if_pos rfl, yamlText] at h
    split at h
    · next v hv =>
      cases h
      exact ⟨v, hv, rfl⟩
    · cases h

/-- JSON text that is written from YAML text shows a document that comes from it, with one member for each
key of a mapping exactly if its keys are told apart.  The text is accepted exactly if all doubles of the
document are finite and it is not nested too deep.  What is read back then is the document, if no object
has two members of one name, and the document without all but the last of them otherwise. -/
theorem run_yamlToJson_objects {options : Options} {text : Option String} {t : String}
    (h : run .yamlToJson options text = .ok t) :
    ∃ v, t = v.render options.layout ∧
      Yaml.ComesFrom Yaml.Valued.ApartIff (text.getD "").toList v ∧
      ((∃ w, Json.parse t = .ok w) ↔ v.FiniteDoubles ∧ v.depth ≤ Json.Reader.depthLimit) ∧
      ∀ w, Json.parse t = .ok w → w = v.settled ∧ (w = v ↔ v.DistinctNames) := by
  obtain ⟨v, hread, rfl⟩ := exists_read_of_run h
  obtain ⟨hcomes, hshort⟩ := Yaml.comesFrom_of_read hread
  have hblank := Json.Layout.isBlank_ofIndent options.indent
  refine ⟨v, rfl, hcomes, Json.exists_parse_render_iff hblank hshort, fun w hw => ?_⟩
  have hparse := Json.parse_render_settled hblank hshort
  rw [show (options.indent.map Json.Layout.ofWidth).getD .line = options.layout from rfl, hw] at hparse
  split at hparse
  · cases hparse
    exact ⟨rfl, Json.settled_eq_self_iff v⟩
  · cases hparse

/-- A number, a truth value and a text as keys, the number twice. -/
theorem run_yamlToJson_objects_keys :
    ∃ t, run .yamlToJson {} (some "1: a\nno: [\x7bx: ~\x7d]\n1: b\n") = .ok t ∧
      t = "\x7b\n  \"1\": \"b\",\n  \"false\": [\n    \x7b\n      \"x\": null\n    \x7d\n  ]\n\x7d" ∧
      ∃ v, t = v.render (.ofWidth 2) ∧
        Yaml.ComesFrom Yaml.Valued.ApartIff "1: a\nno: [\x7bx: ~\x7d]\n1: b\n".toList v ∧
        ((∃ w, Json.parse t = .ok w) ↔ v.FiniteDoubles ∧ v.depth ≤ Json.Reader.depthLimit) ∧
        ∀ w, Json.parse t = .ok w → w = v.settled ∧ (w = v ↔ v.DistinctNames) := by
  have hrun : run .yamlToJson {} (some "1: a\nno: [\x7bx: ~\x7d]\n1: b\n") =
      .ok "\x7b\n  \"1\": \"b\",\n  \"false\": [\n    \x7b\n      \"x\": null\n    \x7d\n  ]\n\x7d" :=
    eq_ok_of_toOption (by decide +kernel)
  exact ⟨_, hrun, rfl, run_yamlToJson_objects hrun⟩

/-- A name twice in one object, a value that is lost, and a text that is not accepted. -/
theorem run_yamlToJson_keysAlike :
    run .yamlToJson {} (some "1: a\n\"1\": b\n") = .ok "\x7b\n  \"1\": \"a\",\n  \"1\": \"b\"\n\x7d" ∧
      run .yamlToJson {} (some "1: a\ntrue: b\n") = .ok "\x7b\n  \"1\": \"b\"\n\x7d" ∧
      run .yamlToJson {} (some ".nan") = .ok "NaN" ∧ ¬∃ w, Json.parse "NaN" = .ok w := by
  refine ⟨eq_ok_of_toOption (by decide +kernel), eq_ok_of_toOption (by decide +kernel),
    eq_ok_of_toOption (by decide +kernel), ?_⟩
  rintro ⟨w, hw⟩
  cases hw

end Conversion

end DocDesk
