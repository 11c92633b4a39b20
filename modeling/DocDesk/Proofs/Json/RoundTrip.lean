import DocDesk.Proofs.Json.Representable
import DocDesk.Proofs.Json.Scalar
import DocDesk.Proofs.Text.Parts

/-!
# Written documents read back

Whatever the layout, a representable document is read back from its text if its doubles are finite.  If
one is not, the text is refused under the name of the first such double.  Where a name is repeated in an
object, one member of the name is read back, with the last value.

Main statements: `parse_render_settled` and `parse_render`.
-/

namespace DocDesk.Json

/-! ## Doubles without a value -/

mutual

/-- The name of the first double of the document that has no value in JSON text. -/
def constant? : Json → Option String
  | .float x => Reader.constantName? x
  | .arr items => constantItem? items
  | .obj members => constantMember? members
  | _ => none

/-- The name of the first such double of the items. -/
def constantItem? : List Json → Option String
  | [] => none
  | v :: vs => constant? v <|> constantItem? vs

/-- The name of the first such double of the members. -/
def constantMember? : List (String × Json) → Option String
  | [] => none
  | (_, v) :: ms => constant? v <|> constantMember? ms

end

mutual

/-- A document has no constant exactly if all of its doubles are finite. -/
theorem constant?_eq_none_iff (v : Json) : constant? v = none ↔ FiniteDoubles v := by
  match v with
  | .float x =>
    rw [constant?, Reader.constantName?_eq_none_iff]
    exact ⟨fun h => .scalar rfl h, fun h => h.self⟩
  | .arr items =>
    rw [constant?, constantItem?_eq_none_iff items]
    exact ⟨fun h => .arr trivial h, fun h => h.items⟩
  | .obj members =>
    rw [constant?, constantMember?_eq_none_iff members]
    exact ⟨fun h => .obj trivial h, fun h => h.members⟩
  | .null | .bool _ | .int _ | .str _ => exact ⟨fun _ => .scalar rfl trivial, fun _ => rfl⟩

theorem constantItem?_eq_none_iff (vs : List Json) :
    constantItem? vs = none ↔ ∀ v ∈ vs, FiniteDoubles v := by
  match vs with
  | [] => simp [constantItem?]
  | v :: vs =>
    rw [constantItem?, Option.orElse_eq_orElse, Option.orElse_eq_or, Option.or_eq_none_iff,
      constant?_eq_none_iff v, constantItem?_eq_none_iff vs, List.forall_mem_cons]

theorem constantMember?_eq_none_iff (ms : List (String × Json)) :
    constantMember? ms = none ↔ ∀ m ∈ ms, FiniteDoubles m.2 := by
  match ms with
  | [] => simp [constantMember?]
  | (k, v) :: ms =>
    rw [constantMember?, Option.orElse_eq_orElse, Option.orElse_eq_or, Option.or_eq_none_iff,
      constant?_eq_none_iff v, constantMember?_eq_none_iff ms, List.forall_mem_cons]

end

/-! ## What a reader makes of a document -/

mutual

/-- The document with the members of its objects as they are stored: one of a name, with the last value. -/
def settled : Json → Json
  | .arr items => .arr (settledItems items)
  | .obj members => .obj (ofPairs (settledMembers members))
  | v => v

/-- Items with the members of their objects as they are stored. -/
def settledItems : List Json → List Json
  | [] => []
  | v :: vs => settled v :: settledItems vs

/-- Members with the members of their objects as they are stored. -/
def settledMembers : List (String × Json) → List (String × Json)
  | [] => []
  | (k, v) :: ms => (k, settled v) :: settledMembers ms

end

/-- A scalar is settled. -/
theorem settled_of_isScalar {v : Json} (h : v.isScalar = true) : v.settled = v := by
  cases v with
  | arr items => cases h
  | obj members => cases h
  | _ => rfl

mutual

/-- A settled document has no name twice in an object. -/
theorem distinctNames_settled (v : Json) : v.settled.DistinctNames := by
  match v with
  | .arr items =>
    rw [settled]
    exact .arr trivial (distinctNames_settledItems items)
  | .obj members =>
    rw [settled]
    exact .obj (nodup_ofPairs _) fun m hm =>
      distinctNames_settledMembers members m (mem_of_mem_ofPairs hm)
  | .null | .bool _ | .int _ | .float _ | .str _ => exact .scalar rfl trivial

theorem distinctNames_settledItems (vs : List Json) : ∀ v ∈ settledItems vs, DistinctNames v := by
  match vs with
  | [] => exact List.forall_mem_nil _
  | v :: vs =>
    rw [settledItems, List.forall_mem_cons]
    exact ⟨distinctNames_settled v, distinctNames_settledItems vs⟩

theorem distinctNames_settledMembers (ms : List (String × Json)) :
    ∀ m ∈ settledMembers ms, DistinctNames m.2 := by
  match ms with
  | [] => exact List.forall_mem_nil _
  | (k, v) :: ms =>
    rw [settledMembers, List.forall_mem_cons]
    exact ⟨distinctNames_settled v, distinctNames_settledMembers ms⟩

end

mutual

/-- A document without a name twice is settled. -/
theorem settled_of_distinctNames {v : Json} (h : v.DistinctNames) : v.settled = v := by
  match v with
  | .arr items => rw [settled, settledItems_of_distinctNames h.items]
  | .obj members =>
    rw [settled, settledMembers_of_distinctNames h.members, ofPairs_of_nodup h.nodup]
  | .null | .bool _ | .int _ | .float _ | .str _ => rfl

theorem settledItems_of_distinctNames {vs : List Json} (h : ∀ v ∈ vs, DistinctNames v) :
    settledItems vs = vs := by
  match vs with
  | [] => rfl
  | v :: vs =>
    obtain ⟨hv, hvs⟩ := List.forall_mem_cons.mp h
    rw [settledItems, settled_of_distinctNames hv, settledItems_of_distinctNames hvs]

theorem settledMembers_of_distinctNames {ms : List (String × Json)}
    (h : ∀ m ∈ ms, DistinctNames m.2) : settledMembers ms = ms := by
  match ms with
  | [] => rfl
  | (k, v) :: ms =>
    obtain ⟨hm, hms⟩ := List.forall_mem_cons.mp h
    rw [settledMembers, settled_of_distinctNames hm, settledMembers_of_distinctNames hms]

end

/-- Nothing changes in a document exactly if its names are distinct. -/
theorem settled_eq_self_iff (v : Json) : v.settled = v ↔ v.DistinctNames :=
  ⟨fun h => h ▸ distinctNames_settled v, settled_of_distinctNames⟩

mutual

/-- Why a reader of a given depth refuses the text of a document: a double without a value or a container
that is nested too deep, whichever comes first. -/
def refusal? (d : Nat) : Json → Option Reader.Fault
  | .float x => (Reader.constantName? x).map .constant
  | .arr items =>
    match d with
    | 0 => some (.tooDeep .array)
    | d + 1 => refusalItem? d items
  | .obj members =>
    match d with
    | 0 => some (.tooDeep .object)
    | d + 1 => refusalMember? d members
  | _ => none

/-- Why a reader refuses items. -/
def refusalItem? (d : Nat) : List Json → Option Reader.Fault
  | [] => none
  | v :: vs => refusal? d v <|> refusalItem? d vs

/-- Why a reader refuses members. -/
def refusalMember? (d : Nat) : List (String × Json) → Option Reader.Fault
  | [] => none
  | (_, v) :: ms => refusal? d v <|> refusalMember? d ms

end

mutual

/-- Nothing is refused of a document exactly if its doubles are finite and it is not nested too deep. -/
theorem refusal?_eq_none_iff (d : Nat) (v : Json) :
    refusal? d v = none ↔ v.FiniteDoubles ∧ v.depth ≤ d := by
  match v, d with
  | .float x, d =>
    rw [refusal?, Option.map_eq_none_iff, Reader.constantName?_eq_none_iff]
    exact ⟨fun h => ⟨.scalar rfl h, Nat.zero_le d⟩, fun h => h.1.self⟩
  | .arr items, 0 =>
    rw [refusal?, depth]
    simp
  | .arr items, d + 1 =>
    rw [refusal?, depth, Nat.add_le_add_iff_right, depthItem_le_iff, refusalItem?_eq_none_iff d items]
    exact ⟨fun h => ⟨.arr trivial fun v hv => (h v hv).1, fun v hv => (h v hv).2⟩,
      fun h v hv => ⟨h.1.items v hv, h.2 v hv⟩⟩
  | .obj members, 0 =>
    rw [refusal?, depth]
    simp
  | .obj members, d + 1 =>
    rw [refusal?, depth, Nat.add_le_add_iff_right, depthMember_le_iff,
      refusalMember?_eq_none_iff d members]
    exact ⟨fun h => ⟨.obj trivial fun m hm => (h m hm).1, fun m hm => (h m hm).2⟩,
      fun h m hm => ⟨h.1.members m hm, h.2 m hm⟩⟩
  | .null, d | .bool _, d | .int _, d | .str _, d =>
    exact ⟨fun _ => ⟨.scalar rfl trivial, Nat.zero_le d⟩, fun _ => rfl⟩

theorem refusalItem?_eq_none_iff (d : Nat) (vs : List Json) :
    refusalItem? d vs = none ↔ ∀ v ∈ vs, v.FiniteDoubles ∧ v.depth ≤ d := by
  match vs with
  | [] => simp [refusalItem?]
  | v :: vs =>
    rw [refusalItem?, Option.orElse_eq_orElse, Option.orElse_eq_or, Option.or_eq_none_iff,
      refusal?_eq_none_iff d v, refusalItem?_eq_none_iff d vs, List.forall_mem_cons]

theorem refusalMember?_eq_none_iff (d : Nat) (ms : List (String × Json)) :
    refusalMember? d ms = none ↔ ∀ m ∈ ms, m.2.FiniteDoubles ∧ m.2.depth ≤ d := by
  match ms with
  | [] => simp [refusalMember?]
  | (k, v) :: ms =>
    rw [refusalMember?, Option.orElse_eq_orElse, Option.orElse_eq_or, Option.or_eq_none_iff,
      refusal?_eq_none_iff d v, refusalMember?_eq_none_iff d ms, List.forall_mem_cons]

end

mutual

/-- A document that nests no deeper than the reader goes is refused for a double only. -/
theorem refusal?_of_depth_le {d : Nat} {v : Json} (h : v.depth ≤ d) :
    refusal? d v = v.constant?.map .constant := by
  match v, d with
  | .float x, d => rfl
  | .arr items, 0 =>
    rw [depth] at h
    omega
  | .arr items, d + 1 =>
    rw [depth, Nat.add_le_add_iff_right, depthItem_le_iff] at h
    exact refusalItem?_of_depth_le h
  | .obj members, 0 =>
    rw [depth] at h
    omega
  | .obj members, d + 1 =>
    rw [depth, Nat.add_le_add_iff_right, depthMember_le_iff] at h
    exact refusalMember?_of_depth_le h
  | .null, d | .bool _, d | .int _, d | .str _, d => rfl

/-- Among items that are not nested too deep only constants are refused. -/
theorem refusalItem?_of_depth_le {d : Nat} {vs : List Json} (h : ∀ v ∈ vs, v.depth ≤ d) :
    refusalItem? d vs = (constantItem? vs).map .constant := by
  match vs with
  | [] => rfl
  | v :: vs =>
    obtain ⟨hv, hvs⟩ := List.forall_mem_cons.mp h
    rw [refusalItem?, constantItem?, refusal?_of_depth_le hv, refusalItem?_of_depth_le hvs]
    cases constant? v with
    | none => rfl
    | some name => rfl

/-- Among members that are not nested too deep only constants are refused. -/
theorem refusalMember?_of_depth_le {d : Nat} {ms : List (String × Json)}
    (h : ∀ m ∈ ms, m.2.depth ≤ d) :
    refusalMember? d ms = (constantMember? ms).map .constant := by
  match ms with
  | [] => rfl
  | (k, v) :: ms =>
    obtain ⟨hm, hms⟩ := List.forall_mem_cons.mp h
    rw [refusalMember?, constantMember?, refusal?_of_depth_le hm, refusalMember?_of_depth_le hms]
    cases constant? v with
    | none => rfl
    | some name => rfl

end

/-! ## Layouts -/

/-- The layout consists of blanks of JSON text. -/
def Layout.IsBlank (layout : Layout) : Prop :=
  ∀ unit, layout = .block unit → ∀ c ∈ unit, Reader.isSpace c = true

/-- Every indentation is made of blanks. -/
theorem Layout.isBlank_ofIndent (indent : Option Int) :
    ((indent.map Layout.ofWidth).getD .line).IsBlank := by
  intro unit h c hc
  cases indent with
  | none => cases h
  | some n =>
    cases h
    rw [List.eq_of_mem_replicate hc]
    rfl

namespace Reader

open Writer (write writeItems writeMembers lineBreak separator quotedString)

section Layout

variable {layout : Layout} {level : Nat}

/-- What stands between lines is space. -/
theorem isSpace_lineBreak (h : layout.IsBlank) : ∀ c ∈ lineBreak layout level, isSpace c = true := by
  intro c hc
  cases layout with
  | line => cases hc
  | block unit =>
    rcases List.mem_cons.mp hc with rfl | hc
    · rfl
    · obtain ⟨part, hpart, hc⟩ := List.mem_flatten.mp hc
      rw [List.eq_of_mem_replicate hpart] at hc
      exact h unit rfl c hc

/-- Space in front of a text is passed. -/
theorem skip_append {u r : List Char} (h : ∀ c ∈ u, isSpace c = true) : skip (u ++ r) = skip r :=
  List.dropWhile_append_of_pos h

/-- A text that starts with no space stays. -/
theorem skip_cons {c : Char} {r : List Char} (h : isSpace c = false) : skip (c :: r) = c :: r := by
  rw [skip, List.dropWhile_cons, h, if_neg Bool.false_ne_true]

/-- A comma stands at the front of what is between two items. -/
theorem separator_eq (h : layout.IsBlank) (level : Nat) :
    ∃ u, separator layout level = ',' :: u ∧ ∀ c ∈ u, isSpace c = true := by
  cases layout with
  | line => exact ⟨[' '], rfl, by simp [isSpace]⟩
  | block unit => exact ⟨_, rfl, isSpace_lineBreak h⟩

/-- A comma, a bracket, a brace and a line break end a numeral. -/
theorem endsNumeral_cons {c : Char} {r : List Char} (h : c ∈ [',', ']', '}', '\n']) :
    EndsNumeral (c :: r) := by
  intro d hd
  obtain rfl : c = d := by simpa using hd
  simp only [List.mem_cons, List.not_mem_nil, or_false] at h
  rcases h with rfl | rfl | rfl | rfl <;> decide

/-- So does a line break with a bracket behind it. -/
theorem endsNumeral_lineBreak {c : Char} {r : List Char} (h : c ∈ [']', '}']) :
    EndsNumeral (lineBreak layout level ++ c :: r) := by
  cases layout with
  | line => exact endsNumeral_cons (List.mem_cons_of_mem _ (List.mem_append_left ['\n'] h))
  | block unit => exact endsNumeral_cons (by simp)

/-- Behind an item no numeral goes on. -/
theorem endsNumeral_writeItems (h : layout.IsBlank) (level level' : Nat) (vs : List Json)
    (r : List Char) :
    EndsNumeral (writeItems layout level vs ++ (lineBreak layout level' ++ ']' :: r)) := by
  cases vs with
  | nil => exact endsNumeral_lineBreak (by simp)
  | cons v vs =>
    obtain ⟨u, hu, -⟩ := separator_eq h level
    rw [writeItems, hu]
    exact endsNumeral_cons (by simp)

/-- Behind a member no numeral goes on. -/
theorem endsNumeral_writeMembers (h : layout.IsBlank) (level level' : Nat)
    (ms : List (String × Json)) (r : List Char) :
    EndsNumeral (writeMembers layout level ms ++ (lineBreak layout level' ++ '}' :: r)) := by
  cases ms with
  | nil => exact endsNumeral_lineBreak (by simp)
  | cons m ms =>
    obtain ⟨u, hu, -⟩ := separator_eq h level
    rw [writeMembers, hu]
    exact endsNumeral_cons (by simp)

end Layout

/-! ## How documents start -/

/-- The characters that no document starts with. -/
def nonStarts : List Char := [' ', '\t', '\n', '\r', ']', '}', '\uFEFF']

/-- The signs that texts and containers start with. -/
def openers : List Char := ['"', '[', '{']

/-- A numeral starts with a digit or a minus sign. -/
theorem exists_cons_numeral (negative : Bool) (p : Numeral.Parts) :
    ∃ c t, Binary64.signText negative ++ p.text = c :: t ∧ c ∉ nonStarts ∧ c ∉ openers := by
  cases negative with
  | true => exact ⟨'-', p.text, rfl, by decide, by decide⟩
  | false =>
    obtain ⟨d, t, hd, htext⟩ := p.text_eq_cons
    have hstart : ∀ c ∈ nonStarts ++ openers, c.isDigit = false :=
      Text.forall_mem_of_all (by decide)
    refine ⟨d, t, htext, fun hmem => ?_, fun hmem => ?_⟩
    · rw [hstart d (List.mem_append_left _ hmem)] at hd
      cases hd
    · rw [hstart d (List.mem_append_right _ hmem)] at hd
      cases hd

/-- An integer starts like a scalar. -/
theorem exists_cons_intText (i : Int) : ∃ c t, intText i = c :: t ∧ c ∉ nonStarts ∧ c ∉ openers := by
  have htext : intText i = Binary64.signText (decide (i < 0)) ++ (Numeral.ofNat i.natAbs).text := by
    rw [Numeral.text_ofNat]
    simp [intText, Binary64.signText]
  rw [htext]
  exact exists_cons_numeral _ _

/-- A double starts like a scalar. -/
theorem exists_cons_floatText (x : Binary64) :
    ∃ c t, Writer.floatText x = c :: t ∧ c ∉ nonStarts ∧ c ∉ openers := by
  cases x with
  | nan => exact ⟨'N', ['a', 'N'], rfl, by decide, by decide⟩
  | infinite negative =>
    cases negative with
    | false => exact ⟨'I', _, rfl, by decide, by decide⟩
    | true => exact ⟨'-', _, rfl, by decide, by decide⟩
  | finite negative r =>
    obtain ⟨p, htext, -⟩ := Binary64.exists_numeral_magnitudeText r
    have hcons := exists_cons_numeral negative p
    rw [htext] at hcons
    exact hcons

/-- A document starts with a character that is no blank and closes nothing. -/
theorem exists_cons_write (layout : Layout) (level : Nat) (v : Json) :
    ∃ c t, write layout level v = c :: t ∧ c ∉ nonStarts := by
  match v with
  | .null => exact ⟨'n', _, by rw [write], by decide⟩
  | .bool true => exact ⟨'t', _, by rw [write], by decide⟩
  | .bool false => exact ⟨'f', _, by rw [write], by decide⟩
  | .int i =>
    obtain ⟨c, t, htext, hc, -⟩ := exists_cons_intText i
    exact ⟨c, t, by rw [write, htext], hc⟩
  | .float x =>
    obtain ⟨c, t, htext, hc, -⟩ := exists_cons_floatText x
    exact ⟨c, t, by rw [write, htext], hc⟩
  | .str s => exact ⟨'"', _, by rw [write, quotedString, List.cons_append], by decide⟩
  | .arr [] => exact ⟨'[', _, by rw [write], by decide⟩
  | .arr (v :: vs) =>
    exact ⟨'[', _, by rw [write, List.cons_append, List.cons_append, List.cons_append,
      List.cons_append], by decide⟩
  | .obj [] => exact ⟨'{', _, by rw [write], by decide⟩
  | .obj ((k, v) :: ms) =>
    exact ⟨'{', _, by rw [write, List.cons_append, List.cons_append, List.cons_append,
      List.cons_append, List.cons_append, List.cons_append], by decide⟩

/-- What a value may start with is no space. -/
theorem isSpace_of_notMem {c : Char} (h : c ∉ nonStarts) : isSpace c = false := by
  simp only [nonStarts, List.mem_cons, not_or] at h
  simp [isSpace, h]

/-- No blank is dropped in front of a document. -/
theorem skip_write (layout : Layout) (level : Nat) (v : Json) (r : List Char) :
    skip (write layout level v ++ r) = write layout level v ++ r := by
  obtain ⟨c, t, htext, hc⟩ := exists_cons_write layout level v
  rw [htext, List.cons_append, skip_cons (isSpace_of_notMem hc)]

/-- A value that starts with no opener is a scalar. -/
theorem readValue_of_notMem {d : Nat} {c : Char} {r : List Char} (h : c ∉ openers) :
    readValue d (c :: r) = readScalar (c :: r) := by
  simp only [openers, List.mem_cons, not_or] at h
  unfold readValue
  split
  · next heq => cases heq; exact absurd rfl h.1
  · next heq => cases heq; exact absurd rfl h.2.1
  · next heq => cases heq; exact absurd rfl h.2.2.1
  · next heq => cases heq
  · next heq => rw [heq]

/-! ## What is read -/

/-- A value with the characters left after it, or its refusal. -/
def outcome {α : Type} (v : α) (refusal : Option Fault) (r : List Char) : Result α :=
  match refusal with
  | none => .ok (v, r)
  | some f => .error f

section Containers

variable {layout : Layout} {level level' d : Nat} {item : List Char → Result Json}

/-- Items are read one after the other, up to the closing bracket. -/
theorem readItems_write (hlayout : layout.IsBlank) {v : Json} {vs : List Json} {n : Nat}
    {r : List Char} (hn : vs.length < n)
    (hitem : ∀ w ∈ v :: vs, ∀ r, EndsNumeral r →
      item (write layout level w ++ r) = outcome w.settled (refusal? d w) r) :
    readItems item n (write layout level v ++
        (writeItems layout level vs ++ (lineBreak layout level' ++ ']' :: r))) =
      outcome (settledItems (v :: vs)) (refusalItem? d (v :: vs)) r := by
  -- on the items behind the first; each refusal ends the reading, so it is the first one that counts
  induction vs generalizing v n with
  | nil =>
    obtain ⟨n, rfl⟩ := Nat.exists_eq_succ_of_ne_zero (Nat.ne_of_gt hn)
    have hfirst := hitem v List.mem_cons_self _ (endsNumeral_writeItems hlayout level level' [] r)
    rw [Nat.succ_eq_add_one, readItems, hfirst, refusalItem?, refusalItem?]
    cases refusal? d v with
    | some f => rfl
    | none =>
      have hskip : skip (lineBreak layout level' ++ ']' :: r) = ']' :: r := by
        rw [skip_append (isSpace_lineBreak hlayout), skip_cons rfl]
      simp only [outcome, writeItems, List.nil_append, hskip]
      rfl
  | cons w vs ih =>
    obtain ⟨n, rfl⟩ := Nat.exists_eq_succ_of_ne_zero (show n ≠ 0 by omega)
    have hfirst := hitem v List.mem_cons_self _
      (endsNumeral_writeItems hlayout level level' (w :: vs) r)
    have hrest := ih (v := w) (n := n) (by simpa using hn) fun u hu =>
      hitem u (List.mem_cons_of_mem _ hu)
    obtain ⟨u, hu, hblank⟩ := separator_eq hlayout level
    rw [Nat.succ_eq_add_one, readItems, hfirst, refusalItem?]
    cases refusal? d v with
    | some f => rfl
    | none =>
      have hskip : skip (u ++ (write layout level w ++ (writeItems layout level vs ++
          (lineBreak layout level' ++ ']' :: r)))) = write layout level w ++
          (writeItems layout level vs ++ (lineBreak layout level' ++ ']' :: r)) := by
        rw [skip_append hblank, skip_write]
      simp only [outcome, writeItems, hu, List.cons_append, List.append_assoc]
      rw [skip_cons rfl]
      simp only [hskip, hrest]
      rw [Option.orElse_eq_orElse, Option.orElse_eq_or, Option.none_or]
      cases refusalItem? d (w :: vs) with
      | some f => rfl
      | none => rfl

/-- The name of a member is read with the colon and the blank behind it. -/
theorem readName_quotedString (k : String) {r : List Char} (hr : skip r = r) :
    readName (quotedString k ++ ':' :: ' ' :: r) = .ok (k, r) := by
  obtain ⟨t, ht, hread⟩ := readString_quotedString k (':' :: ' ' :: r)
  have hblank : skip (' ' :: r) = r := (skip_append (u := [' ']) (by simp [isSpace])).trans hr
  rw [ht, readName, hread]
  dsimp only
  rw [skip_cons rfl]
  simp only [hblank]

/-- Members are read one after the other, up to the closing brace. -/
theorem readMembers_write (hlayout : layout.IsBlank) {k : String} {v : Json}
    {ms : List (String × Json)} {n : Nat} {r : List Char} (hn : ms.length < n)
    (hitem : ∀ m ∈ (k, v) :: ms, ∀ r, EndsNumeral r →
      item (write layout level m.2 ++ r) = outcome m.2.settled (refusal? d m.2) r) :
    readMembers item n (quotedString k ++ ':' :: ' ' :: (write layout level v ++
        (writeMembers layout level ms ++ (lineBreak layout level' ++ '}' :: r)))) =
      outcome (settledMembers ((k, v) :: ms)) (refusalMember? d ((k, v) :: ms)) r := by
  -- as with items, on the members behind the first
  induction ms generalizing k v n with
  | nil =>
    obtain ⟨n, rfl⟩ := Nat.exists_eq_succ_of_ne_zero (Nat.ne_of_gt hn)
    have hfirst := hitem (k, v) List.mem_cons_self _
      (endsNumeral_writeMembers hlayout level level' [] r)
    rw [Nat.succ_eq_add_one, readMembers, readName_quotedString k (skip_write ..), refusalMember?,
      refusalMember?]
    simp only [hfirst]
    cases refusal? d v with
    | some f => rfl
    | none =>
      have hskip : skip (lineBreak layout level' ++ '}' :: r) = '}' :: r := by
        rw [skip_append (isSpace_lineBreak hlayout), skip_cons rfl]
      simp only [outcome, writeMembers, List.nil_append, hskip]
      rfl
  | cons m ms ih =>
    obtain ⟨k', w⟩ := m
    obtain ⟨n, rfl⟩ := Nat.exists_eq_succ_of_ne_zero (show n ≠ 0 by omega)
    have hfirst := hitem (k, v) List.mem_cons_self _
      (endsNumeral_writeMembers hlayout level level' ((k', w) :: ms) r)
    have hrest := ih (k := k') (v := w) (n := n) (by simpa using hn) fun u hu =>
      hitem u (List.mem_cons_of_mem _ hu)
    obtain ⟨u, hu, hblank⟩ := separator_eq hlayout level
    rw [Nat.succ_eq_add_one, readMembers, readName_quotedString k (skip_write ..), refusalMember?]
    simp only [hfirst]
    cases refusal? d v with
    | some f => rfl
    | none =>
      have hname : ∀ t, skip (u ++ (quotedString k' ++ t)) = quotedString k' ++ t := by
        intro t
        rw [skip_append hblank, quotedString, List.cons_append, List.cons_append, skip_cons rfl]
      simp only [outcome, writeMembers, hu, List.cons_append, List.append_assoc]
      rw [skip_cons rfl]
      simp only [hname, List.nil_append, hrest]
      rw [Option.orElse_eq_orElse, Option.orElse_eq_or, Option.none_or]
      cases refusalMember? d ((k', w) :: ms) with
      | some f => rfl
      | none => rfl

end Containers

/-- Every item takes a character at least. -/
theorem length_le_writeItems (layout : Layout) (level : Nat) (vs : List Json) :
    vs.length ≤ (writeItems layout level vs).length := by
  induction vs with
  | nil => exact Nat.zero_le _
  | cons v vs ih =>
    obtain ⟨c, t, htext, -⟩ := exists_cons_write layout level v
    rw [writeItems, htext]
    simp only [List.length_append, List.length_cons]
    omega

/-- Every member takes a character at least. -/
theorem length_le_writeMembers (layout : Layout) (level : Nat) (ms : List (String × Json)) :
    ms.length ≤ (writeMembers layout level ms).length := by
  induction ms with
  | nil => exact Nat.zero_le _
  | cons m ms ih =>
    rw [writeMembers]
    simp only [List.length_append, List.length_cons]
    omega

/-- A written scalar is read, or refused for a constant. -/
theorem readValue_write_scalar (layout : Layout) (level d : Nat) {v : Json} {r : List Char}
    (hscalar : v.isScalar = true) (hshort : OwnIntegerShort v) (hr : EndsNumeral r) :
    readValue d (write layout level v ++ r) = outcome v (refusal? d v) r := by
  match v with
  | .null =>
    rw [write]
    exact readValue_of_notMem (c := 'n') (by decide)
  | .bool true =>
    rw [write]
    exact readValue_of_notMem (c := 't') (by decide)
  | .bool false =>
    rw [write]
    exact readValue_of_notMem (c := 'f') (by decide)
  | .int i =>
    obtain ⟨c, t, htext, -, hc⟩ := exists_cons_intText i
    rw [write, htext, List.cons_append, readValue_of_notMem hc, ← List.cons_append, ← htext,
      readScalar_intText hshort hr]
    rfl
  | .float x =>
    obtain ⟨c, t, htext, -, hc⟩ := exists_cons_floatText x
    rw [write, htext, List.cons_append, readValue_of_notMem hc, ← List.cons_append, ← htext,
      readScalar_floatText hr, refusal?]
    cases constantName? x with
    | none => rfl
    | some name => rfl
  | .str s =>
    obtain ⟨t, ht, hread⟩ := readString_quotedString s r
    rw [write, ht, readValue, hread]
    rfl
  | .arr _ => cases hscalar
  | .obj _ => cases hscalar

section Values

variable {layout : Layout} {level d : Nat} {r : List Char}

/-- An array with items is read back if its items are. -/
theorem readValue_write_arr (hlayout : layout.IsBlank) {v : Json} {vs : List Json}
    (hitem : ∀ w ∈ v :: vs, ∀ r, EndsNumeral r →
      readValue d (write layout (level + 1) w ++ r) = outcome w.settled (refusal? d w) r) :
    readValue (d + 1) (write layout level (.arr (v :: vs)) ++ r) =
      outcome (Json.arr (v :: vs)).settled (refusal? (d + 1) (.arr (v :: vs))) r := by
  obtain ⟨c, t, htext, hc⟩ := exists_cons_write layout (level + 1) v
  have hlength := length_le_writeItems layout (level + 1) vs
  rw [write]
  simp only [List.cons_append, List.append_assoc, List.nil_append]
  rw [readValue]
  simp only [skip_append (isSpace_lineBreak hlayout), skip_write]
  split
  · next heq =>
    rw [htext, List.cons_append, List.cons.injEq] at heq
    exact absurd (by rw [heq.1]; decide) hc
  · rw [readItems_write hlayout _ hitem]
    · rw [refusal?, settled]
      cases refusalItem? d (v :: vs) with
      | some f => rfl
      | none => rfl
    · simp only [List.length_append]
      omega

/-- An object with members is read back if their values are. -/
theorem readValue_write_obj (hlayout : layout.IsBlank) {k : String} {v : Json}
    {ms : List (String × Json)}
    (hitem : ∀ m ∈ (k, v) :: ms, ∀ r, EndsNumeral r →
      readValue d (write layout (level + 1) m.2 ++ r) = outcome m.2.settled (refusal? d m.2) r) :
    readValue (d + 1) (write layout level (.obj ((k, v) :: ms)) ++ r) =
      outcome (Json.obj ((k, v) :: ms)).settled (refusal? (d + 1) (.obj ((k, v) :: ms))) r := by
  have hlength := length_le_writeMembers layout (level + 1) ms
  have hname : ∀ t, skip (quotedString k ++ t) = quotedString k ++ t := by
    intro t
    rw [quotedString, List.cons_append, List.cons_append, skip_cons rfl]
  rw [write]
  simp only [List.cons_append, List.append_assoc, List.nil_append]
  rw [readValue]
  simp only [skip_append (isSpace_lineBreak hlayout), hname]
  split
  · next heq => cases heq
  · rw [readMembers_write hlayout _ hitem]
    · rw [refusal?, settled]
      cases refusalMember? d ((k, v) :: ms) with
      | some f => rfl
      | none => rfl
    · simp only [List.length_append, List.length_cons]
      omega

end Values

/-- A document is read back from its text with the members of its objects as they are stored, or it is
refused. -/
theorem readValue_write {layout : Layout} (hlayout : layout.IsBlank) {d level : Nat} {v : Json}
    {r : List Char} (hv : v.ShortIntegers) (hr : EndsNumeral r) :
    readValue d (write layout level v ++ r) = outcome v.settled (refusal? d v) r := by
  induction d generalizing v level r with
  | zero =>
    by_cases hscalar : v.isScalar = true
    · rw [settled_of_isScalar hscalar]
      exact readValue_write_scalar layout level 0 hscalar hv.self hr
    match v with
    | .arr [] | .arr (_ :: _) | .obj [] | .obj (_ :: _) => rw [write]; rfl
  | succ d ih =>
    by_cases hscalar : v.isScalar = true
    · rw [settled_of_isScalar hscalar]
      exact readValue_write_scalar layout level (d + 1) hscalar hv.self hr
    match v, hv with
    | .arr [], _ => rw [write]; rfl
    | .obj [], _ => rw [write]; rfl
    | .arr (w :: vs), hv => exact readValue_write_arr hlayout fun u hu _ hs => ih (hv.items u hu) hs
    | .obj ((k, w) :: ms), hv => exact readValue_write_obj hlayout fun m hm _ hs => ih (hv.members m hm) hs

/-- A written document is read as it is settled, or refused for what is refused of it. -/
theorem readDocument_write {layout : Layout} (hlayout : layout.IsBlank) {v : Json}
    (hv : v.ShortIntegers) :
    readDocument (write layout 0 v) =
      match refusal? depthLimit v with
      | none => .ok v.settled
      | some f => .error f := by
  obtain ⟨c, t, htext, hc⟩ := exists_cons_write layout 0 v
  have hskip := skip_write layout 0 v []
  have hread : readValue depthLimit (write layout 0 v ++ []) =
      outcome v.settled (refusal? depthLimit v) [] :=
    readValue_write hlayout hv (by simp [EndsNumeral])
  rw [List.append_nil] at hskip hread
  unfold readDocument
  split
  · next heq =>
    rw [htext, List.cons.injEq] at heq
    exact absurd (by rw [heq.1]; decide) hc
  · rw [hskip, hread]
    cases refusal? depthLimit v with
    | none => rfl
    | some f => rfl

end Reader

/-- What becomes of the text of a document: it is read back with the members of its objects as they are
stored, or it is refused. -/
theorem parse_render_settled {layout : Layout} (hlayout : layout.IsBlank) {v : Json}
    (hv : v.ShortIntegers) :
    parse (v.render layout) =
      match v.refusal? Reader.depthLimit with
      | none => .ok v.settled
      | some f => .error ⟨"JSON", Problem.ofFault (v.render layout).toList f⟩ := by
  rw [parse, render, String.toList_ofList, parseChars, Reader.readDocument_write hlayout hv]
  cases v.refusal? Reader.depthLimit with
  | none => rfl
  | some f => rfl

/-- The text of a document is accepted exactly if its doubles are finite and it does not nest too deep. -/
theorem exists_parse_render_iff {layout : Layout} (hlayout : layout.IsBlank) {v : Json}
    (hv : v.ShortIntegers) : (∃ w, parse (v.render layout) = .ok w) ↔
      v.FiniteDoubles ∧ v.depth ≤ Reader.depthLimit := by
  rw [parse_render_settled hlayout hv, ← refusal?_eq_none_iff]
  cases v.refusal? Reader.depthLimit with
  | none => exact ⟨fun _ => rfl, fun _ => ⟨_, rfl⟩⟩
  | some f => exact ⟨nofun, nofun⟩

/-- A representable document is read from its text, or refused for its first constant. -/
theorem parse_render_eq {layout : Layout} (hlayout : layout.IsBlank) {v : Json} (hv : v.Representable) :
    parse (v.render layout) =
      match v.constant? with
      | none => .ok v
      | some name => .error ⟨"JSON", .refused (.constant name)⟩ := by
  rw [parse_render_settled hlayout hv.shortIntegers, refusal?_of_depth_le hv.depth_le,
    settled_of_distinctNames hv.distinctNames]
  cases v.constant? with
  | none => rfl
  | some name => rfl

/-- A representable document with finite doubles is read from its text. -/
theorem parse_render_of_finite {v : Json} (hv : v.Representable) (hfinite : v.FiniteDoubles)
    (indent : Option Int) : parse (v.render ((indent.map Layout.ofWidth).getD .line)) = .ok v := by
  rw [parse_render_eq (Layout.isBlank_ofIndent indent) hv, (constant?_eq_none_iff v).mpr hfinite]

/-- Written JSON text is read back as the document it was written from if all doubles are finite, and is
refused for a constant if not. -/
theorem parse_render {v : Json} (hv : v.Representable) (indent : Option Int) :
    let text := v.render ((indent.map Layout.ofWidth).getD .line)
    (v.FiniteDoubles → parse text = .ok v) ∧
      (¬ v.FiniteDoubles → ∃ name, v.constant? = some name ∧
        parse text = .error ⟨"JSON", .refused (.constant name)⟩) := by
  dsimp only
  rw [parse_render_eq (Layout.isBlank_ofIndent indent) hv, ← constant?_eq_none_iff]
  cases v.constant? with
  | none => exact ⟨fun _ => rfl, fun h => absurd rfl h⟩
  | some name => exact ⟨fun h => absurd h (by simp), fun _ => ⟨name, rfl, rfl⟩⟩

/-- An object over several lines is read back with its negative zero, and refused on one line with a
negative infinity in its place. -/
theorem parse_render_zero_infinity :
    let v (x : Binary64) : Json := .obj [("a\n", .arr [.int (-12), .float x]), ("", .obj [])]
    let zero : Binary64 := .finite true ⟨0, by decide⟩
    parse ((v zero).render (.ofWidth 2)) = .ok (v zero) ∧
      ∃ name, (v (.infinite true)).constant? = some name ∧
        parse ((v (.infinite true)).render .line) = .error ⟨"JSON", .refused (.constant name)⟩ :=
  ⟨(parse_render (by decide) (some 2)).1 (by decide), (parse_render (by decide) none).2 (by decide)⟩

end DocDesk.Json
