import DocDesk.Proofs.Json.Everywhere
import DocDesk.Proofs.Yaml.Numeral
import DocDesk.Proofs.Yaml.Quoted.Double
import DocDesk.Proofs.Yaml.Quoted.Single
import DocDesk.Proofs.Yaml.Scan.Line

/-!
# The tokens of a written document

Which tokens stand for a document, and which of its texts are read back as they were written.  A text
between single quotes loses the character U+0085, which is read as a line feed; and a name that has to be
escaped may grow beyond the reach of a key on a line of its own.

Main statements: `spells_write`, `spells_name` and `readBack_eq_self_iff`.
-/

namespace DocDesk.Yaml

open Writer (isSimpleKey isPlainScalar inline?)

/-! ## Texts that are kept -/

/-- A text as it is read back from the style that is chosen for it. -/
def Style.readBack (asKey : Bool) (cs : List Char) : List Char :=
  if Style.choose asKey cs = .single then Quoted.readSingle cs else cs

/-- The style that is chosen for a text keeps it. -/
def Style.Keeps (asKey : Bool) (cs : List Char) : Prop :=
  Style.choose asKey cs = .single → '\x85' ∉ cs

/-- A text is read back as it is exactly if its style keeps it. -/
theorem Style.readBack_eq_self_iff {asKey : Bool} {cs : List Char} :
    Style.readBack asKey cs = cs ↔ Style.Keeps asKey cs := by
  rw [Style.readBack, Style.Keeps]
  split
  · next h => rw [Quoted.readSingle_eq_self_iff, forall_prop_of_true h]
  · next h => exact ⟨fun _ hsingle => absurd hsingle h, fun _ => rfl⟩

/-- A name that is a key on a line of its own does not become too long for one by what is escaped in it. -/
def NameFits (name : List Char) : Prop :=
  isSimpleKey name = true → Style.choose true name = .double →
    (Style.doubleQuoted name).length ≤ TokenState.keyReach

/-- A name of a member is kept: as it is written, and where it is a key on a line of its own it is not
too long for one. -/
def KeepsName (name : List Char) : Prop := NameFits name ∧ Style.Keeps (isSimpleKey name) name

instance (asKey : Bool) (cs : List Char) : Decidable (Style.Keeps asKey cs) :=
  inferInstanceAs (Decidable (_ → _))

instance (name : List Char) : Decidable (NameFits name) :=
  inferInstanceAs (Decidable (_ → _ → _))

instance (name : List Char) : Decidable (KeepsName name) :=
  inferInstanceAs (Decidable (_ ∧ _))

/-- The names of an object's members are not too long. -/
def OwnNamesFit : Json → Prop
  | .obj members => ∀ m ∈ members, NameFits m.1.toList
  | _ => True

/-- All names in the document are short enough for where they are written. -/
def NamesFit : Json → Prop := Json.Everywhere OwnNamesFit

instance : DecidablePred OwnNamesFit
  | .obj members => inferInstanceAs (Decidable (∀ m ∈ members, NameFits m.1.toList))
  | .null | .bool _ | .int _ | .float _ | .str _ | .arr _ => inferInstanceAs (Decidable True)

instance (v : Json) : Decidable (NamesFit v) :=
  inferInstanceAs (Decidable (Json.Everywhere OwnNamesFit v))

/-- A name behind a question mark may be as long as it is. -/
theorem nameFits_of_not_simple {name : List Char} (h : isSimpleKey name = false) : NameFits name := by
  intro hsimple
  rw [h] at hsimple
  cases hsimple

/-- The names of an array fit if those of its items do. -/
theorem namesFit_arr_iff {vs : List Json} : NamesFit (.arr vs) ↔ ∀ v ∈ vs, NamesFit v :=
  ⟨Json.Everywhere.items, fun h => .arr trivial h⟩

/-- The names of an object fit if its own do and those of its values. -/
theorem namesFit_obj_iff {ms : List (String × Json)} :
    NamesFit (.obj ms) ↔ ∀ m ∈ ms, NameFits m.1.toList ∧ NamesFit m.2 :=
  ⟨fun h m hm => ⟨h.self m hm, h.members m hm⟩,
    fun h => .obj (fun m hm => (h m hm).1) fun m hm => (h m hm).2⟩

/-- A text, and the names of an object's members, are kept. -/
def OwnTextsKept : Json → Prop
  | .str s => Style.Keeps false s.toList
  | .obj members => ∀ m ∈ members, KeepsName m.1.toList
  | _ => True

instance : DecidablePred OwnTextsKept
  | .str s => inferInstanceAs (Decidable (Style.Keeps false s.toList))
  | .obj members => inferInstanceAs (Decidable (∀ m ∈ members, KeepsName m.1.toList))
  | .null | .bool _ | .int _ | .float _ | .arr _ => inferInstanceAs (Decidable True)

/-- All texts and names in the document are kept. -/
def TextsKept : Json → Prop := Json.Everywhere OwnTextsKept

instance (v : Json) : Decidable (TextsKept v) :=
  inferInstanceAs (Decidable (Json.Everywhere OwnTextsKept v))

/-! ## The tokens -/

/-- The kind of token that a text is read as. -/
def textKind (asKey : Bool) (cs : List Char) : Token.Kind :=
  .scalar (Style.readBack asKey cs) (Style.choose asKey cs = .plain)

/-- The kind of token that a member's name is read as. -/
def nameKind (name : List Char) : Token.Kind := textKind (isSimpleKey name) name

mutual

/-- The kinds of the tokens of a value.  An array directly behind a simple name has no start and no end
of its own. -/
def nodeKinds (inner : Bool) : Json → List Token.Kind
  | .null => [.scalar "null".toList true]
  | .bool b => [.scalar (if b then "true".toList else "false".toList) true]
  | .int i => [.scalar (intText i) true]
  | .float x => [.scalar (Writer.floatText x) true]
  | .str s => [textKind false s.toList]
  | .arr [] => [.flowSequenceStart, .flowSequenceEnd]
  | .obj [] => [.flowMappingStart, .flowMappingEnd]
  | .arr (v :: vs) =>
    let items := .blockEntry :: nodeKinds false v ++ itemKinds vs
    if inner then items else .blockSequenceStart :: items ++ [.blockEnd]
  | .obj ((k, v) :: ms) =>
    .blockMappingStart :: .key :: nameKind k.toList :: .value :: nodeKinds (isSimpleKey k.toList) v
      ++ memberKinds ms ++ [.blockEnd]

/-- The kinds of the tokens of items. -/
def itemKinds : List Json → List Token.Kind
  | [] => []
  | v :: vs => .blockEntry :: nodeKinds false v ++ itemKinds vs

/-- The kinds of the tokens of members. -/
def memberKinds : List (String × Json) → List Token.Kind
  | [] => []
  | (k, v) :: ms =>
    .key :: nameKind k.toList :: .value :: nodeKinds (isSimpleKey k.toList) v ++ memberKinds ms

end

/-- The kinds of the tokens of a document. -/
def documentKinds (v : Json) : List Token.Kind :=
  .streamStart :: nodeKinds false v ++ ((if isPlainScalar v then [.documentEnd] else []) ++ [.streamEnd])

/-! ## Written scalars -/

open Point (Spells)

/-- A text is plain if it stands for nothing else and is safe. -/
theorem of_choose_plain {asKey : Bool} {cs : List Char} (h : Style.choose asKey cs = .plain) :
    resolve cs = .str ∧ Style.isPlainSafe cs = true := by
  rw [Style.choose] at h
  split at h
  · next hplain => simpa using hplain
  · split at h <;> cases h

/-- A text between single quotes is safe there. -/
theorem isSingleSafe_of_choose {asKey : Bool} {cs : List Char} (h : Style.choose asKey cs = .single) :
    Style.isSingleSafe cs = true := by
  rw [Style.choose] at h
  split at h
  · cases h
  · split at h
    · next hsingle => exact (Bool.and_eq_true _ _ ▸ hsingle).1
    · cases h

/-- A text is read back as its style has it. -/
theorem spells_write {asKey : Bool} {indent : Nat} (hindent : 0 < indent) (cs : List Char) :
    Spells (Style.write asKey indent cs) (textKind asKey cs) := by
  rw [Style.write, textKind, Style.readBack]
  cases hchoice : Style.choose asKey cs with
  | plain =>
    obtain ⟨hresolve, hplain⟩ := of_choose_plain hchoice
    refine .plain (Style.plainSafe_of_isPlainSafe hplain) ?_
    rintro rfl
    cases hresolve
  | single =>
    have hsingle := Style.singleSafe_of_isSingleSafe (isSingleSafe_of_choose hchoice)
    exact .quoted false _ ⟨_, rfl⟩ (Style.raw_singleQuoted hsingle.raw) fun m r hr =>
      quotedToken_singleQuoted hindent hsingle hr
  | double =>
    exact .quoted true cs ⟨_, rfl⟩ (fun c hc => (Style.isRaw_of_mem_doubleQuoted hc).1) fun m r _ =>
      quotedToken_doubleQuoted cs r m

/-- A name on a line of its own is read back. -/
theorem spells_name {indent : Nat} (hindent : 0 < indent) {name : List Char}
    (hsimple : isSimpleKey name = true) : Spells (Style.write true indent name) (nameKind name) := by
  rw [nameKind, hsimple]
  exact spells_write hindent name

/-- A name for a line of its own has no break and is not too long. -/
theorem isBreak_of_isSimpleKey {name : List Char} (hsimple : isSimpleKey name = true) :
    (∀ c ∈ name, isBreak c = false) ∧ name.length ≤ Writer.keyLimit := by
  simp only [isSimpleKey, Bool.and_eq_true, Bool.not_eq_true', decide_eq_true_eq] at hsimple
  obtain ⟨⟨-, hline⟩, hlength⟩ := hsimple
  refine ⟨fun c hc => ?_, hlength⟩
  simpa using List.any_eq_false.mp hline c hc

/-- A name on a line of its own stays on that line. -/
theorem isBreak_of_mem_name (indent : Nat) {name : List Char} (hsimple : isSimpleKey name = true) :
    ∀ c ∈ Style.write true indent name, isBreak c = false := by
  have hbreak := (isBreak_of_isSimpleKey hsimple).1
  rw [Style.write]
  cases hchoice : Style.choose true name with
  | plain => exact hbreak
  | single =>
    dsimp only
    rw [Style.singleQuoted_of_no_break hbreak]
    intro c hc
    rw [List.cons_append, List.mem_cons, List.mem_append, List.mem_singleton] at hc
    rcases hc with rfl | hc | rfl
    · rfl
    · rcases Style.mem_doubled hc with hc | rfl
      · exact hbreak c hc
      · rfl
    · rfl
  | double => exact fun c hc => (Style.isRaw_of_mem_doubleQuoted hc).2

/-- A name on a line of its own is within the reach of a key exactly if it fits. -/
theorem length_name_le_iff (indent : Nat) {name : List Char} (hsimple : isSimpleKey name = true) :
    (Style.write true indent name).length ≤ TokenState.keyReach ↔ NameFits name := by
  obtain ⟨hbreak, hlength⟩ := isBreak_of_isSimpleKey hsimple
  rw [NameFits, forall_prop_of_true hsimple]
  have hlimit : 2 * Writer.keyLimit + 2 ≤ TokenState.keyReach := by decide
  rw [Style.write]
  cases hchoice : Style.choose true name with
  | plain =>
    refine iff_of_true ?_ nofun
    dsimp only
    omega
  | single =>
    have hdoubled := Style.length_doubled_le name
    refine iff_of_true ?_ nofun
    dsimp only
    rw [Style.singleQuoted_of_no_break hbreak, List.cons_append, List.length_cons, List.length_append,
      List.length_singleton]
    omega
  | double => exact ⟨fun h _ => h, fun h => h rfl⟩

end DocDesk.Yaml
