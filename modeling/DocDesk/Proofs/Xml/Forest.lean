import DocDesk.Proofs.Xml.Reading

/-!
# The forest that XML text carries

An object, or a list of objects however deep the lists, is written as a text that reads back: its tags
nest, and its elements are those of the members in order, with nothing but blanks around them.  An array
has no element of its own, and its items stand under the name of the array.

Main statements: `lays_elements` and `write_carries`.
-/

namespace DocDesk.Xml

/-! ## The elements of a document -/

/-- An element: without content, with character data alone, or with elements alone. -/
inductive Element where
  | empty (name : List Char)
  | leaf (name text : List Char)
  | parent (name : List Char) (children : List Element)

mutual

/-- The elements of a value under a name. -/
def forest (name : List Char) : Json → List Element
  | .arr items => itemForest name items
  | .null | .obj [] => [.empty name]
  | .obj (m :: ms) => [.parent name (memberForest (m :: ms))]
  | v => [.leaf name v.looseChars]

/-- The elements of items under the name of their array. -/
def itemForest (name : List Char) : List Json → List Element
  | [] => []
  | v :: vs => forest name v ++ itemForest name vs

/-- The elements of members. -/
def memberForest : List (String × Json) → List Element
  | [] => []
  | (k, v) :: ms => forest (nameOf k.toList) v ++ memberForest ms

end

/-- An object, or a list of such. -/
inductive Records : Json → Prop
  | object (members) : Records (.obj members)
  | list {items} : (∀ v ∈ items, Records v) → Records (.arr items)

mutual

/-- The elements of a document: those of its members, and of one item after the other. -/
def documentForest : Json → List Element
  | .obj members => memberForest members
  | .arr items => documentItemForest items
  | _ => []

/-- The elements of the items of a list of documents. -/
def documentItemForest : List Json → List Element
  | [] => []
  | v :: vs => documentForest v ++ documentItemForest vs

end

/-! ## Nodes that carry elements -/

mutual

/-- A node that is an element. -/
inductive Node.Shows : Node → Element → Prop
  | empty (n) : Node.Shows (.element n []) (.empty n)
  | leaf (n text) : Node.Shows (.element n (text.map .char)) (.leaf n text)
  | parent (n) {content children} : Carries content children →
      Node.Shows (.element n content) (.parent n children)

/-- Nodes that are elements with blanks around them. -/
inductive Carries : List Node → List Element → Prop
  | nil : Carries [] []
  | blank {c ns es} : Text.isBlank c = true → Carries ns es → Carries (.char c :: ns) es
  | element {x ns e es} : Node.Shows x e → Carries ns es → Carries (x :: ns) (e :: es)

end

namespace Carries

variable {cs : List Char} {ns ms : List Node} {es fs : List Element}

/-- Blanks in front of elements carry nothing. -/
theorem blanks_append (hcs : Text.Blanks cs) (h : Carries ns es) :
    Carries (cs.map .char ++ ns) es := by
  induction cs with
  | nil => exact h
  | cons c cs ih =>
    exact .blank (hcs c List.mem_cons_self) (ih fun d hd => hcs d (List.mem_cons_of_mem _ hd))

/-- Nodes joined carry the elements joined. -/
theorem append (hn : Carries ns es) (hm : Carries ms fs) : Carries (ns ++ ms) (es ++ fs) := by
  induction ns generalizing es with
  | nil => cases hn; exact hm
  | cons x ns ih =>
    cases hn with
    | blank hc hn => exact .blank hc (ih hn)
    | element hx hn => exact .element hx (ih hn)

end Carries

/-! ## Laid out text -/

/-- A text that reads as elements: nothing, or a text that ends in a tag and a line break behind it. -/
def Lays (newline cs : List Char) (es : List Element) : Prop :=
  (cs = [] ∧ es = []) ∨
    ∃ body ns, cs = body ++ newline ∧ body.getLast? = some '>' ∧ Spells body ns ∧ Carries ns es

namespace Lays

variable {newline a b cs : List Char} {es fs : List Element}

/-- Nothing lays out no element. -/
theorem nil : Lays newline [] [] := .inl ⟨rfl, rfl⟩

/-- The line break behind the last tag is one of the blanks. -/
theorem spells (hnewline : Text.Blanks newline) (h : Lays newline cs es) :
    ∃ ns, Spells cs ns ∧ Carries ns es := by
  obtain ⟨rfl, rfl⟩ | ⟨body, ns, rfl, -, hbody, hns⟩ := h
  · exact ⟨[], Spells.nil, .nil⟩
  · refine ⟨ns ++ newline.map .char, hbody.append (Spells.blanks hnewline), ?_⟩
    have hend : Carries (newline.map .char) [] := by
      simpa using Carries.blanks_append hnewline .nil
    simpa using hns.append hend

/-- Elements laid out one below the other are laid out. -/
theorem append (hnewline : Text.Blanks newline) (ha : Lays newline a es) (hb : Lays newline b fs) :
    Lays newline (a ++ b) (es ++ fs) := by
  obtain ⟨rfl, rfl⟩ | ⟨body, ms, rfl, hlast, hbody, hms⟩ := hb
  · simpa using ha
  · -- what stands in front is read to its end, and the back is that of the text behind
    obtain ⟨ns, hns, hes⟩ := ha.spells hnewline
    refine .inr ⟨a ++ body, ns ++ ms, by simp, ?_, hns.append hbody, hes.append hms⟩
    rw [List.getLast?_append, hlast, Option.some_or]

/-- An element between its indentation and its line break. -/
theorem one {before body : List Char} {x : Node} {e : Element} (hbefore : Text.Blanks before)
    (hlast : body.getLast? = some '>') (hbody : Spells body [x]) (hx : x.Shows e) :
    Lays newline (before ++ body ++ newline) [e] := by
  refine .inr ⟨before ++ body, _, rfl, ?_, (Spells.blanks hbefore).append hbody, ?_⟩
  · rw [List.getLast?_append, hlast, Option.some_or]
  · exact Carries.blanks_append hbefore (.element hx .nil)

end Lays

/-- An end tag ends with its bracket. -/
theorem getLast?_endTag (cs n : List Char) : (cs ++ endTag n).getLast? = some '>' := by
  have hback : endTag n = ('<' :: '/' :: n) ++ ['>'] := rfl
  rw [hback, ← List.append_assoc, List.getLast?_concat]

/-- So does an empty tag. -/
theorem getLast?_emptyTag (n : List Char) : (emptyTag n).getLast? = some '>' := by
  have hback : emptyTag n = ('<' :: n ++ ['/']) ++ ['>'] := by simp [emptyTag]
  rw [hback, List.getLast?_concat]

/-- A layout of blanks alone. -/
structure Layout.IsBlank (layout : Layout) : Prop where
  before : ∀ depth, Text.Blanks (layout.before depth)
  newline : Text.Blanks layout.newline

section Laid

variable {layout : Layout}

mutual

/-- The text of a value under an element name is read as the elements of the value. -/
theorem lays_elements (h : layout.IsBlank) (depth : Nat) {name : List Char} (hname : IsName name)
    (v : Json) : Lays layout.newline (elements layout depth name v) (forest name v) := by
  have hleaf (text : List Char) :
      Lays layout.newline (layout.before depth ++ startTag name ++ escape text ++ endTag name
        ++ layout.newline) [.leaf name text] := by
    have hone : Lays layout.newline _ _ := .one (h.before depth) (getLast?_endTag _ name)
      (Spells.element hname (Spells.escape text)) (.leaf name text)
    simpa using hone
  match v with
  | .arr items => exact lays_itemElements h depth hname items
  | .null | .obj [] =>
    exact Lays.one (h.before depth) (getLast?_emptyTag name) (Spells.emptyTag hname) (.empty name)
  | .obj (m :: ms) =>
    -- the members stand between the line break of the start tag and the indentation of the end tag
    obtain ⟨ns, hns, hes⟩ := (lays_memberElements h (depth + 1) (m :: ms)).spells h.newline
    have hcontent :=
      ((Spells.blanks h.newline).append hns).append (Spells.blanks (h.before depth))
    have hcarries : Carries (layout.newline.map .char ++ ns ++ (layout.before depth).map .char)
        (memberForest (m :: ms)) := by
      have hend : Carries ((layout.before depth).map .char) [] := by
        simpa using Carries.blanks_append (h.before depth) .nil
      simpa using (Carries.blanks_append h.newline hes).append hend
    have hone : Lays layout.newline _ _ := .one (h.before depth) (getLast?_endTag _ name)
      (Spells.element hname hcontent) (.parent name hcarries)
    simpa [elements, forest] using hone
  | .bool _ | .int _ | .float _ | .str _ => exact hleaf _

/-- The items of an array are laid out one below the other. -/
theorem lays_itemElements (h : layout.IsBlank) (depth : Nat) {name : List Char}
    (hname : IsName name) (vs : List Json) :
    Lays layout.newline (itemElements layout depth name vs) (itemForest name vs) := by
  match vs with
  | [] => exact .nil
  | v :: vs =>
    exact (lays_elements h depth hname v).append h.newline (lays_itemElements h depth hname vs)

/-- So are the members of an object. -/
theorem lays_memberElements (h : layout.IsBlank) (depth : Nat) (ms : List (String × Json)) :
    Lays layout.newline (memberElements layout depth ms) (memberForest ms) := by
  match ms with
  | [] => exact .nil
  | (k, v) :: ms =>
    exact (lays_elements h depth (isName_nameOf k.toList) v).append h.newline
      (lays_memberElements h depth ms)

end

/-- A document of records is laid out as its forest. -/
theorem lays_documentBody (h : layout.IsBlank) {v : Json} (hv : Records v) :
    Lays layout.newline (documentBody layout v) (documentForest v) := by
  induction hv with
  | object members =>
    rw [documentBody, documentForest]
    exact lays_memberElements h 0 members
  | @list items hitems ih =>
    rw [documentBody, documentForest]
    -- the items are laid out one after the other
    clear hitems
    induction items with
    | nil => exact .nil
    | cons v vs ihs =>
      rw [itemBodies, documentItemForest]
      exact (ih v List.mem_cons_self).append h.newline
        (ihs fun w hw => ih w (List.mem_cons_of_mem _ hw))

end Laid

/-! ## The written text -/

/-- All line breaks at the end are taken away, and nothing else. -/
theorem withoutLastBreaks_of_last {body : List Char} {c : Char} (hlast : body.getLast? = some c)
    (hc : c ≠ '\n') (k : Nat) : withoutLastBreaks (body ++ List.replicate k '\n') = body := by
  obtain ⟨front, rfl⟩ := List.getLast?_eq_some_iff.mp hlast
  have hbreaks : ∀ d ∈ List.replicate k '\n', (d = '\n' : Bool) = true := by simp
  have hstop : ∀ d ∈ (c :: front.reverse).head?, (d = '\n' : Bool) = false := by simp [hc]
  have hdrop := Text.dropWhile_append_of_stop hbreaks hstop
  rw [withoutLastBreaks, List.reverse_append, List.reverse_replicate, List.reverse_append,
    List.reverse_singleton, List.singleton_append, hdrop]
  simp

/-- Blanks repeated are blanks. -/
theorem blanks_repeated {cs : List Char} (h : Text.Blanks cs) (k : Nat) :
    Text.Blanks (Text.repeated k cs) := by
  intro c hc
  rw [Text.repeated, List.mem_flatten] at hc
  obtain ⟨l, hl, hcl⟩ := hc
  rw [(List.mem_replicate.mp hl).2] at hcl
  exact h c hcl

section Written

variable {options : Options} {unit : String}

/-- A new line is a line break or nothing. -/
theorem newline_layout (options : Options) :
    ∃ k, options.layout.newline = List.replicate k '\n' := by
  simp only [Options.layout]
  split
  · exact ⟨1, rfl⟩
  · exact ⟨0, rfl⟩

/-- A layout with a blank unit is blank. -/
theorem isBlank_layout (hindent : options.indent = .str unit) (hunit : Text.Blanks unit.toList) :
    options.layout.IsBlank := by
  constructor
  · intro depth
    simp only [Options.layout, hindent, padding]
    split
    · exact blanks_repeated hunit depth
    · exact Text.Blanks.nil
  · intro c hc
    obtain ⟨k, hbreaks⟩ := newline_layout options
    rw [hbreaks] at hc
    rw [(List.mem_replicate.mp hc).2]
    decide

/-- Behind the header the text reads as the elements of the document, without the line break that
stands behind the last of them. -/
theorem spells_text {v : Json} (hlayout : options.layout.IsBlank) (hv : Records v) :
    ∃ body ns, text options v = String.ofList ((if options.header then headerLine else []) ++ body) ∧
      Spells body ns ∧ Carries ns (documentForest v) := by
  rcases lays_documentBody hlayout hv with ⟨hcs, hes⟩ | ⟨body, ns, hcs, hlast, hbody, hns⟩
  · refine ⟨[], [], ?_, .nil, hes ▸ .nil⟩
    simp only [text, hcs]
    cases options.header <;> rfl
  · obtain ⟨k, hbreaks⟩ := newline_layout options
    have hdropped : withoutLastBreaks (documentBody options.layout v) = body := by
      rw [hcs, hbreaks]
      exact withoutLastBreaks_of_last hlast (by decide) k
    have hne : body.isEmpty = false := by
      cases body with
      | nil => cases hlast
      | cons c cs => rfl
    cases hheader : options.header with
    | false =>
      refine ⟨body, ns, ?_, hbody, hns⟩
      simp [text, hdropped, hheader]
    | true =>
      -- the line break behind the header is one of the blanks in front
      refine ⟨options.layout.newline ++ body, _, ?_,
        (Spells.blanks hlayout.newline).append hbody, Carries.blanks_append hlayout.newline hns⟩
      simp [text, hdropped, hheader, hne]

/-- An object, or a list of such, is written as text whose tags nest, with the elements of the document
in order and nothing but blanks around them. -/
theorem write_carries {v : Json} (hindent : options.indent = .str unit)
    (hunit : Text.Blanks unit.toList) (hv : Records v) :
    ∃ body tokens nodes,
      write options v = .ok (String.ofList ((if options.header then headerLine else []) ++ body)) ∧
      readTokens body = some tokens ∧ (∀ t ∈ tokens, ∀ n ∈ t.name?, IsName n) ∧
      nest [] [] tokens = some nodes ∧ Carries nodes (documentForest v) := by
  have hwrite : write options v = .ok (text options v) := by
    rw [write, hindent]
    rfl
  obtain ⟨body, nodes, htext, hbody, hnodes⟩ := spells_text (isBlank_layout hindent hunit) hv
  obtain ⟨tokens, htokens, hnest⟩ := hbody.readTokens_nest
  exact ⟨body, tokens, nodes, hwrite.trans (congrArg Except.ok htext), htokens,
    isName_of_mem_readTokens htokens, hnest, hnodes⟩

end Written

/-- Lists of lists, a member that only holds an empty list, a name that is no element name and a text
that has to be escaped. -/
def nestedRecords : Json :=
  .arr [.obj [("a", .arr [.arr [.bool true, .null], .arr []]), ("1 b", .obj [("c", .arr [])])],
    .arr [.obj [("d", .obj []), ("e", .str "<&>")]]]

/-- Records with empty members and characters that have to be escaped. -/
theorem write_carries_nestedRecords :
    Text.Blanks "  ".toList ∧ Records nestedRecords ∧
      documentForest nestedRecords =
        [.leaf ['a'] "true".toList, .empty ['a'], .parent "_1_b".toList [], .empty ['d'],
          .leaf ['e'] "<&>".toList] ∧
      write ⟨true, .str "  ", false⟩ nestedRecords
        = .ok "<a>true</a>\n<a/>\n<_1_b>\n</_1_b>\n<d/>\n<e>&lt;&amp;&gt;</e>" ∧
      ∃ body tokens nodes,
        write ⟨true, .str "  ", false⟩ nestedRecords = .ok (String.ofList body) ∧
        readTokens body = some tokens ∧ (∀ t ∈ tokens, ∀ n ∈ t.name?, IsName n) ∧
        nest [] [] tokens = some nodes ∧ Carries nodes (documentForest nestedRecords) := by
  have hblank : Text.Blanks "  ".toList := by
    intro c hc
    have hspace : c = ' ' := by simpa using hc
    rw [hspace]
    decide
  have hrecords : Records nestedRecords := by
    refine .list fun v hv => ?_
    simp only [List.mem_cons, List.not_mem_nil, or_false] at hv
    rcases hv with rfl | rfl
    · exact .object _
    · refine .list fun w hw => ?_
      rw [List.mem_singleton.mp hw]
      exact .object _
  have htext : text ⟨true, .str "  ", false⟩ nestedRecords
      = "<a>true</a>\n<a/>\n<_1_b>\n</_1_b>\n<d/>\n<e>&lt;&amp;&gt;</e>" := by
    decide +kernel
  refine ⟨hblank, hrecords, rfl, congrArg Except.ok htext, ?_⟩
  exact @write_carries ⟨true, .str "  ", false⟩ "  " nestedRecords rfl hblank hrecords

end DocDesk.Xml
