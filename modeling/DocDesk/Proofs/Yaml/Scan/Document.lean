import DocDesk.Proofs.Json.Representable
import DocDesk.Proofs.Yaml.Kind

/-!
# Written documents scanned

The tokens of a written document, block by block.  Behind every value the line ends, and the next line
is indented no deeper than the block around the value.  The scan breaks off at a name that is too long for
the line it stands on, and nowhere else.

Main statements: `scansBlock` and `yields_document`.
-/

namespace DocDesk.Yaml

open TokenState Writer

namespace Point

variable {p : Point} {kinds? : Option (List Token.Kind)} {k : Nat} {r : List Char} {step : Nat}

/-! ## The line ahead -/

/-- The next line starts with a token and is indented no deeper than the block around, or is the end. -/
structure Ahead (indent : Int) (k : Nat) (r : List Char) : Prop where
  start : Cursor.StartsToken r
  separator : ∀ m, (⟨m, r⟩ : Cursor).atSeparator = false
  column : (k : Int) ≤ indent ∨ (r = [] ∧ k = 0)

/-- The text from a line break on. -/
abbrev lineText (k : Nat) (r : List Char) : List Char := (Space.line k).text ++ r

/-- What is ahead of a block is ahead of the blocks within it. -/
theorem Ahead.mono {i j : Int} (h : Ahead i k r) (hij : i ≤ j) : Ahead j k r :=
  ⟨h.start, h.separator, h.column.imp_left fun hk => Int.le_trans hk hij⟩

/-- A plain text ends before what is ahead. -/
theorem Ahead.endsPlain {indent : Int} (h : Ahead indent k r) (hindent : 0 ≤ indent) :
    EndsPlain indent k r := by
  refine .inl ⟨fun m => ?_, ?_⟩
  · cases k with
    | zero => exact h.separator m
    | succ k => exact Cursor.atSeparator_of_head (by simp [List.replicate_succ])
  · rcases h.column with hk | ⟨-, rfl⟩
    · exact hk
    · exact hindent

/-! ## Values on a line -/

/-- Two parts one below the other are one. -/
theorem below_below (p : Point) (a b : List Token.Kind) (i k : Nat) (u r : List Char) :
    (p.below a i u).below b k r = p.below (b ++ a) k r := by
  simp [below]

/-- Nothing below a point leaves it as it is. -/
theorem below_nil (hallowed : p.keyAllowed = true) : p.below [] p.column p.rest = p := by
  obtain ⟨rest, column, indent, outer, keyAllowed, newest⟩ := p
  cases hallowed
  rfl

/-- A plain text spells itself. -/
theorem spells_word {cs : List Char} (h : Style.isPlainSafe cs = true ∧ cs ≠ []) :
    Spells cs (.scalar cs true) :=
  .plain (Style.plainSafe_of_isPlainSafe h.1) h.2

/-- An integer spells itself. -/
theorem spells_intText (i : Int) : Spells (intText i) (.scalar (intText i) true) := by
  have hsafe := plainSafe_numeral (i < 0) (Numeral.ofNat i.natAbs)
  rw [Numeral.text_ofNat, ← intText_eq] at hsafe
  exact .plain hsafe (by simp [intText, natText_ne_nil])

/-- A finite double spells itself. -/
theorem spells_floatText {x : Binary64} (hx : x.isFinite = true) :
    Spells (floatText x) (.scalar (floatText x) true) := by
  cases x with
  | nan => cases hx
  | infinite negative => cases hx
  | finite negative r =>
    obtain ⟨p, htext, -, -⟩ := exists_numeral_floatText negative r
    obtain ⟨d, t, -, hcons, -⟩ := exists_numeral_cons negative p
    rw [htext]
    exact .plain (plainSafe_numeral negative p) (by rw [hcons]; simp)

/-- A value on a line is a scalar, or an empty container. -/
theorem spells_of_inline {indent : Nat} (hindent : 0 < indent) {v : Json} {line : List Char}
    (hline : inline? indent v = some line) (hfinite : Json.OwnDoubleFinite v)
    (inner : Bool) :
    (∃ kind, Spells line kind ∧ nodeKinds inner v = [kind] ∧
      ((∃ cs, kind = .scalar cs true) → isPlainScalar v = true)) ∨
    ∃ a b first last, (a, b, first, last) ∈ flowPairs ∧ line = [a, b] ∧
      nodeKinds inner v = [first, last] := by
  match v with
  | .null =>
    cases hline
    exact .inl ⟨_, spells_word (by decide), rfl, fun _ => rfl⟩
  | .bool true =>
    cases hline
    exact .inl ⟨_, spells_word (by decide), rfl, fun _ => rfl⟩
  | .bool false =>
    cases hline
    exact .inl ⟨_, spells_word (by decide), rfl, fun _ => rfl⟩
  | .int i =>
    cases hline
    exact .inl ⟨_, spells_intText i, by rw [nodeKinds], fun _ => rfl⟩
  | .float x =>
    cases hline
    exact .inl ⟨_, spells_floatText hfinite, by rw [nodeKinds], fun _ => rfl⟩
  | .str s =>
    cases hline
    refine .inl ⟨_, spells_write hindent _, by rw [nodeKinds], ?_⟩
    rintro ⟨cs, hcs⟩
    rw [textKind, Token.Kind.scalar.injEq] at hcs
    exact hcs.2
  | .arr [] =>
    cases hline
    exact .inr ⟨_, _, _, _, List.mem_cons_self, rfl, by rw [nodeKinds]⟩
  | .obj [] =>
    cases hline
    exact .inr ⟨_, _, _, _, List.mem_cons_of_mem _ List.mem_cons_self, rfl, by rw [nodeKinds]⟩
  | .arr (w :: vs) => cases hline
  | .obj (m :: ms) => cases hline

/-- There is no name in a value on a line. -/
theorem namesFit_of_inline {indent : Nat} {v : Json} {line : List Char}
    (hline : inline? indent v = some line) : NamesFit v := by
  match v with
  | .null | .bool _ | .int _ | .float _ | .str _ => exact .scalar rfl trivial
  | .arr [] => exact .arr trivial (List.forall_mem_nil _)
  | .obj [] => exact .obj (List.forall_mem_nil _) (List.forall_mem_nil _)
  | .arr (_ :: _) | .obj (_ :: _) => cases hline

/-- A value on a line, up to the end of the line. -/
theorem finishes_of_inline (inner : Bool) {indent : Nat} (hindent : 0 < indent) {v : Json}
    {line : List Char} (hline : inline? indent v = some line) (hfinite : Json.OwnDoubleFinite v)
    (hrest : p.rest = line ++ lineText k r) (hr : Cursor.StartsToken r)
    (hcolumn : p.indent < p.column) (hend : isPlainScalar v = true → EndsPlain p.indent k r)
    (hq : (p.below (nodeKinds inner v).reverse k r).Finishes kinds?) : p.Finishes kinds? := by
  rcases spells_of_inline hindent hline hfinite inner with
    ⟨kind, hspells, hkinds, hplain⟩ | ⟨a, b, first, last, hpair, rfl, hkinds⟩
  · rw [hkinds] at hq
    exact finishes_of_scalar hspells hrest hr hcolumn (fun h => hend (hplain h)) hq
  · rw [hkinds] at hq
    exact finishes_of_flow hpair hrest hr hcolumn hq

/-- What stands on the line of its entry starts a token. -/
theorem startsToken_inline {indent : Nat} (hindent : 0 < indent) {v : Json} {line : List Char}
    (hline : inline? indent v = some line) (hfinite : Json.OwnDoubleFinite v)
    (t : List Char) : Cursor.StartsToken (line ++ t) := by
  rcases spells_of_inline hindent hline hfinite false with
    ⟨kind, hspells, -, -⟩ | ⟨a, b, first, last, hpair, rfl, -⟩
  · exact hspells.startsToken t
  · have hboth : ∀ q ∈ flowPairs, isRaw q.1 = true ∧ q.1 ≠ ' ' ∧ q.1 ≠ '#' ∧ isBreak q.1 = false := by
      decide
    exact Cursor.startsToken_cons (hboth _ hpair) _

/-! ## Where blocks start -/

/-- The text starts with a token that is no mark between documents. -/
structure Opens (r : List Char) : Prop where
  start : Cursor.StartsToken r
  separator : ∀ m, (⟨m, r⟩ : Cursor).atSeparator = false

/-- A sign that is followed by something else opens no document. -/
theorem Opens.of_sign {sign e : Char} {t : List Char} (hsign : sign ∈ ['-', '?', ':']) (he : e = ' ' ∨ e = '\n') :
    Opens (sign :: e :: t) where
  start := by
    have hall : ∀ c ∈ ['-', '?', ':'], isRaw c = true ∧ c ≠ ' ' ∧ c ≠ '#' ∧ isBreak c = false :=
      Text.forall_mem_of_all (by decide)
    exact Cursor.startsToken_cons (hall _ hsign) _
  separator := fun m => by
    have hne : ∀ ch, ch = '-' ∨ ch = '.' → e ≠ ch := by
      rintro ch (rfl | rfl) <;> rcases he with rfl | rfl <;> decide
    rw [Cursor.atSeparator, isTriple_of_ne (.inr (hne _ (.inl rfl))), isTriple_of_ne (.inr (hne _ (.inr rfl)))]
    rfl

/-- A key opens no document. -/
theorem Opens.of_spells {text : List Char} {kind : Token.Kind} (h : Spells text kind) (t : List Char) :
    Opens (text ++ ':' :: t) where
  start := h.startsToken _
  separator := fun m => by
    have htriple : ∀ ch, ch = '-' ∨ ch = '.' → (⟨m, text ++ ':' :: t⟩ : Cursor).isTriple ch = false := by
      intro ch hch
      cases h with
      | plain hsafe hne =>
        refine isTriple_of_startsDocument hsafe.document hch ?_ hne
        rintro c hc
        obtain rfl : ':' = c := by simpa using hc
        rcases hch with rfl | rfl <;> decide
      | quoted double cs hopen hraw hread =>
        obtain ⟨u, rfl⟩ := hopen
        refine isTriple_of_head_ne ?_
        rcases hch with rfl | rfl <;> cases double <;> decide
    rw [Cursor.atSeparator, htriple '-' (.inl rfl), htriple '.' (.inr rfl)]
    rfl

/-- Behind its sign an entry has a blank, or the blanks up to the column of its block. -/
theorem entry_eq (hstep : 1 < step) (column : Nat) (v : Json) (text : List Char) :
    entry step column v text =
      match inline? (column + step) v with
      | some line => (Space.blanks 0).text ++ line
      | none => (Space.blanks (step - 2)).text ++ text := by
  rw [entry]
  cases inline? (column + step) v with
  | some line => rfl
  | none =>
    have hblanks : step - 1 = step - 2 + 1 := by omega
    dsimp only
    rw [blanks, hblanks]
    rfl

/-- The sign of an item opens a block. -/
theorem opens_item (hstep : 1 < step) (column : Nat) (v : Json) (text t : List Char) :
    Opens ('-' :: entry step column v text ++ t) := by
  rw [entry_eq hstep]
  cases inline? (column + step) v with
  | some line => exact .of_sign (by decide) (.inl rfl)
  | none => exact .of_sign (by decide) (.inl rfl)

/-- A member opens a block. -/
theorem opens_member (hstep : 1 < step) (column : Nat) (name : List Char)
    (v : Json) (text t : List Char) : Opens (member step column name v text ++ t) := by
  rw [member]
  by_cases hsimple : isSimpleKey name = true
  · rw [if_pos hsimple, List.append_assoc, List.cons_append]
    exact .of_spells (spells_name (by omega) hsimple) _
  · rw [if_neg hsimple]
    exact .of_sign (by decide) (.inl rfl)

/-- A value that does not fit on its line opens a block. -/
theorem opens_block (hstep : 1 < step) (column : Nat) {v : Json} {indent : Nat}
    (hblock : inline? indent v = none) (t : List Char) :
    Opens (block step column v ++ t) := by
  match v with
  | .null | .int _ | .float _ | .str _ | .arr [] | .obj [] => cases hblock
  | .bool b => cases b <;> cases hblock
  | .arr (w :: vs) =>
    rw [block, List.append_assoc]
    exact opens_item hstep column w _ _
  | .obj ((name, w) :: ms) =>
    rw [block, List.append_assoc]
    exact opens_member hstep column name.toList w _ _

/-! ## Items and members -/

/-- From the point on the scan goes on to the given end, which is a fault if a name does not fit. -/
def FinishesIf (fits : Prop) (p : Point) (kinds? : Option (List Token.Kind)) : Prop :=
  (fits → p.Finishes kinds?) ∧ (¬fits → kinds? = none)

namespace FinishesIf

variable {q : Point} {A B : Prop}

/-- Where no name is read, all fit. -/
theorem of_fits (hfits : A) (h : p.FinishesIf A kinds?) : p.Finishes kinds? := h.1 hfits

/-- A step that does not read a name. -/
theorem imp (h : q.FinishesIf A kinds?) (hstep : q.Finishes kinds? → p.Finishes kinds?) :
    p.FinishesIf A kinds? :=
  ⟨fun hfits => hstep (h.1 hfits), h.2⟩

/-- The names that are read first have to fit, and then those that are read next. -/
theorem first (h : q.FinishesIf (A ∧ B) kinds?)
    (hstep : q.FinishesIf B kinds? → p.Finishes kinds?) : p.FinishesIf A kinds? :=
  ⟨fun hA => hstep ⟨fun hB => h.1 ⟨hA, hB⟩, fun hB => h.2 fun hboth => hB hboth.2⟩,
    fun hA => h.2 fun hboth => hA hboth.1⟩

end FinishesIf

/-- A value sits at a column: within the block around it, or at its column if it is an array directly
behind a simple name. -/
def Sits (inner : Bool) (v : Json) (indent : Int) (column : Nat) : Prop :=
  match inner, v with
  | true, .arr _ => indent = column
  | _, _ => indent < column

/-- The value is scanned wherever it is written as a block. -/
def ScansBlock (step : Nat) (v : Json) : Prop :=
  ∀ (p : Point) (k : Nat) (r : List Char) (kinds? : Option (List Token.Kind)) (inner : Bool),
    p.rest = block step p.column v ++ lineText k r → p.keyAllowed = true →
      Sits inner v p.indent p.column → Ahead p.indent k r →
      (p.below (nodeKinds inner v).reverse k r).FinishesIf (NamesFit v) kinds? → p.Finishes kinds?

/-- A block is opened at its column. -/
theorem column_opened (p : Point) (kind : Token.Kind) : (p.opened kind).column = p.column := by
  rw [opened]
  split <;> rfl

/-- A block is indented to its column. -/
theorem indent_opened {kind : Token.Kind} (h : p.indent ≤ p.column) :
    (p.opened kind).indent = p.column := by
  rw [opened]
  split
  · rfl
  · omega

/-- A value is written on a line or as a block, whatever the indentation. -/
theorem inline?_eq_none_iff {i j : Nat} {v : Json} : inline? i v = none ↔ inline? j v = none := by
  match v with
  | .null | .int _ | .float _ | .str _ | .arr [] | .obj [] => exact ⟨nofun, nofun⟩
  | .bool b => cases b <;> exact ⟨nofun, nofun⟩
  | .arr (_ :: _) | .obj (_ :: _) => exact ⟨fun _ => rfl, fun _ => rfl⟩

/-- A block that is indented deeper sits in the one around it. -/
theorem sits_of_lt {inner : Bool} {v : Json} {indent : Int} {column : Nat} (h : indent < column)
    (hinner : inner = false) : Sits inner v indent column := by
  rw [hinner]
  exact h

section Entry

variable {v : Json} {column : Nat}

/-- What stands behind the sign of an entry is scanned as its value. -/
theorem exists_entry (hstep : 1 < step) (ih : inline? 0 v = none → ScansBlock step v)
    (hfinite : Json.OwnDoubleFinite v) (hahead : Ahead column k r) :
    ∃ j t, entry step column v (block step (column + step) v) ++ lineText k r =
        (Space.blanks j).text ++ t ∧ Cursor.StartsToken t ∧
      ∀ (q : Point) (kinds? : Option (List Token.Kind)), q.rest = t →
        q.column = column + 1 + (j + 1) → q.indent = column → q.keyAllowed = true →
        (q.below (nodeKinds false v).reverse k r).FinishesIf (NamesFit v) kinds? →
        q.Finishes kinds? := by
  rw [entry_eq hstep]
  cases hline : inline? (column + step) v with
  | some line =>
    refine ⟨0, line ++ lineText k r, List.append_assoc _ _ _,
      startsToken_inline (by omega) hline hfinite _, fun q kinds? hrest hcolumn hindent _ hq => ?_⟩
    refine finishes_of_inline false (by omega) hline hfinite hrest hahead.start (by omega) (fun _ => ?_)
      (hq.of_fits (namesFit_of_inline hline))
    rw [hindent]
    exact hahead.endsPlain (by omega)
  | none =>
    refine ⟨step - 2, block step (column + step) v ++ lineText k r, List.append_assoc _ _ _,
      (opens_block hstep _ hline _).start, fun q kinds? hrest hcolumn hindent hallowed hq => ?_⟩
    have hcolumn' : q.column = column + step := by omega
    refine ih (inline?_eq_none_iff.mp hline) q k r kinds? false (by rw [hrest, hcolumn']) hallowed
      (sits_of_lt (by omega) rfl) ?_ hq
    rw [hindent]
    exact hahead

/-- An item. -/
theorem finishes_of_item (hstep : 1 < step) (ih : inline? 0 v = none → ScansBlock step v)
    (hfinite : Json.OwnDoubleFinite v) (hahead : Ahead p.column k r)
    (hrest : p.rest = '-' :: entry step p.column v (block step (p.column + step) v) ++ lineText k r)
    (hallowed : p.keyAllowed = true) (hindent : p.indent ≤ p.column)
    (hq : ((p.opened .blockSequenceStart).below ((nodeKinds false v).reverse ++ [.blockEntry])
      k r).FinishesIf (NamesFit v) kinds?) : p.Finishes kinds? := by
  obtain ⟨j, t, htext, hstart, hvalue⟩ := exists_entry hstep ih hfinite hahead
  rw [List.cons_append, htext] at hrest
  refine finishes_of_entry hrest hstart hallowed hindent (hvalue _ kinds? rfl ?_ (indent_opened hindent) rfl ?_)
  · rw [past, column_opened]
    rfl
  · have hbelow : ((p.opened .blockSequenceStart).past .blockEntry 1 true (.blanks j) t).below
        (nodeKinds false v).reverse k r = (p.opened .blockSequenceStart).below
          ((nodeKinds false v).reverse ++ [.blockEntry]) k r := by
      simp [past, below]
    rw [hbelow]
    exact hq

/-- The column of a value behind a simple name. -/
theorem sits_valueColumn (hstep : 1 < step) {name : List Char} (hsimple : isSimpleKey name = true) :
    Sits true v column (valueColumn step column name v) := by
  cases v with
  | arr items =>
    rw [valueColumn, if_pos hsimple]
    exact rfl
  | _ => exact Int.ofNat_lt.mpr (Nat.lt_add_of_pos_right (by omega))

variable {name : List Char}

/-- What stands behind the colon of a name on the same line is scanned as its value: a value of one line
stands there too, any other value on the lines below the name. -/
theorem exists_memberValue (hstep : 1 < step) (ih : inline? 0 v = none → ScansBlock step v)
    (hfinite : Json.OwnDoubleFinite v) (hsimple : isSimpleKey name = true) (hahead : Ahead column k r) :
    ∃ (sp : Space) (t : List Char),
      member step column name v (block step (valueColumn step column name v) v) ++ lineText k r =
        Style.write true (column + step) name ++ ':' :: (sp.text ++ t) ∧ Cursor.StartsToken t ∧
      ∀ (q : Point) (length : Nat) (kinds? : Option (List Token.Kind)), q.rest = t →
        q.column = sp.column (column + (length + 1)) → q.indent = column →
        q.keyAllowed = sp.allows false →
        (q.below (nodeKinds true v).reverse k r).FinishesIf (NamesFit v) kinds? →
        q.Finishes kinds? := by
  rw [member, if_pos hsimple]
  cases hline : inline? (column + step) v with
  | some line =>
    refine ⟨.blanks 0, line ++ lineText k r, by simp [Space.text],
      startsToken_inline (by omega) hline hfinite _, fun q length kinds? hrest hcolumn hindent _ hq => ?_⟩
    have hcolumn' : q.column = column + (length + 1) + 1 := hcolumn
    refine finishes_of_inline true (by omega) hline hfinite hrest hahead.start (by omega) (fun _ => ?_)
      (hq.of_fits (namesFit_of_inline hline))
    rw [hindent]
    exact hahead.endsPlain (by omega)
  | none =>
    refine ⟨.line (valueColumn step column name v),
      block step (valueColumn step column name v) v ++ lineText k r, by simp [Space.text, newLine, blanks],
      (opens_block hstep _ hline _).start, fun q length kinds? hrest hcolumn hindent hallowed hq => ?_⟩
    have hcolumn' : q.column = valueColumn step column name v := hcolumn
    refine ih (inline?_eq_none_iff.mp hline) q k r kinds? true (by rw [hrest, hcolumn']) hallowed ?_ ?_ hq
    · rw [hindent, hcolumn']
      exact sits_valueColumn hstep hsimple
    · rw [hindent]
      exact hahead

/-- A member whose name stands on a line of its own, and is no key if it does not fit. -/
theorem finishes_of_simpleMember (hstep : 1 < step) (ih : inline? 0 v = none → ScansBlock step v)
    (hfinite : Json.OwnDoubleFinite v) (hsimple : isSimpleKey name = true) (hahead : Ahead p.column k r)
    (hrest : p.rest = member step p.column name v (block step (valueColumn step p.column name v) v)
      ++ lineText k r)
    (hallowed : p.keyAllowed = true) (hindent : p.indent ≤ p.column)
    (hq : ((p.opened .blockMappingStart).below ((nodeKinds true v).reverse ++
      [.value, nameKind name, .key]) k r).FinishesIf (NameFits name ∧ NamesFit v) kinds?) :
    p.Finishes kinds? := by
  have hspells := spells_name (show 0 < p.column + step by omega) hsimple
  have hbreak := isBreak_of_mem_name (p.column + step) hsimple
  obtain ⟨sp, t, htext, hstart, hvalue⟩ := exists_memberValue hstep ih hfinite hsimple hahead
  rw [htext] at hrest
  by_cases hname : NameFits name
  · have hshort := (length_name_le_iff (p.column + step) hsimple).mpr hname
    refine finishes_of_simpleKey sp hspells hbreak hshort hrest hstart hallowed hindent ?_
    refine hvalue _ _ kinds? rfl rfl (indent_opened hindent) rfl ?_
    have hbelow : ∀ length, (p.pastKey (nameKind name) length sp t).below (nodeKinds true v).reverse k r =
        (p.opened .blockMappingStart).below
          ((nodeKinds true v).reverse ++ [.value, nameKind name, .key]) k r := by
      intro length
      simp [pastKey, below]
    rw [hbelow]
    exact ⟨fun hv => hq.1 ⟨hname, hv⟩, fun hv => hq.2 fun hboth => hv hboth.2⟩
  · have hlong := mt (length_name_le_iff (p.column + step) hsimple).mp hname
    rw [hq.2 fun hboth => hname hboth.1]
    exact finishes_of_longKey sp hspells hbreak (Nat.lt_of_not_le hlong) hrest hallowed hindent

/-- A member whose name stands behind a question mark. -/
theorem finishes_of_longMember (hstep : 1 < step) (ih : inline? 0 v = none → ScansBlock step v)
    (hfinite : Json.OwnDoubleFinite v) (hsimple : isSimpleKey name = false) (hahead : Ahead p.column k r)
    (hrest : p.rest = member step p.column name v (block step (p.column + step) v) ++ lineText k r)
    (hallowed : p.keyAllowed = true) (hindent : p.indent ≤ p.column)
    (hq : ((p.opened .blockMappingStart).below ((nodeKinds false v).reverse ++
      [.value, nameKind name, .key]) k r).FinishesIf (NamesFit v) kinds?) : p.Finishes kinds? := by
  obtain ⟨j, t, htext, hstart, hvalue⟩ := exists_entry hstep ih hfinite hahead
  have hspells : Spells (Style.write false (p.column + step) name) (nameKind name) := by
    rw [nameKind, hsimple]
    exact spells_write (by omega) name
  have hcolon : Opens (':' :: ((Space.blanks j).text ++ t)) := .of_sign (by decide) (.inl rfl)
  have hrest' : p.rest = '?' :: ((Space.blanks 0).text ++ (Style.write false (p.column + step) name ++
      lineText p.column (':' :: ((Space.blanks j).text ++ t)))) := by
    rw [hrest, member, hsimple, if_neg Bool.false_ne_true, ← htext]
    simp [lineText, Space.text, newLine, blanks]
  refine finishes_of_key hrest' (hspells.startsToken _) hallowed hindent ?_
  have hopened : (p.opened .blockMappingStart).indent = p.column := indent_opened hindent
  refine finishes_of_scalar hspells rfl hcolon.start ?_ (fun _ => ?_) ?_
  · rw [past]
    dsimp only
    rw [hopened, column_opened]
    refine Int.ofNat_lt.mpr ?_
    rw [Space.column]
    omega
  · have hnext : Ahead p.column p.column (':' :: ((Space.blanks j).text ++ t)) :=
      ⟨hcolon.start, hcolon.separator, .inl (Int.le_refl _)⟩
    rw [past]
    dsimp only
    rw [hopened]
    exact hnext.endsPlain (by omega)
  · refine finishes_of_value (.blanks j) (r := t) rfl hstart rfl hopened
      (hvalue _ kinds? rfl rfl hopened rfl ?_)
    have hbelow : ∀ u, ((((p.opened .blockMappingStart).past .key 1 true (.blanks 0) u).below [nameKind name]
        p.column (':' :: ((Space.blanks j).text ++ t))).past .value 1 true (.blanks j) t).below
          (nodeKinds false v).reverse k r = (p.opened .blockMappingStart).below
            ((nodeKinds false v).reverse ++ [.value, nameKind name, .key]) k r := by
      intro u
      simp [past, below]
    rw [hbelow]
    exact hq

/-- A member. -/
theorem finishes_of_member (hstep : 1 < step) (ih : inline? 0 v = none → ScansBlock step v)
    (hfinite : Json.OwnDoubleFinite v) (hahead : Ahead p.column k r)
    (hrest : p.rest = member step p.column name v (block step (valueColumn step p.column name v) v)
      ++ lineText k r)
    (hallowed : p.keyAllowed = true) (hindent : p.indent ≤ p.column)
    (hq : ((p.opened .blockMappingStart).below ((nodeKinds (isSimpleKey name) v).reverse ++
      [.value, nameKind name, .key]) k r).FinishesIf (NameFits name ∧ NamesFit v) kinds?) :
    p.Finishes kinds? := by
  cases hsimple : isSimpleKey name with
  | true =>
    rw [hsimple] at hq
    exact finishes_of_simpleMember hstep ih hfinite hsimple hahead hrest hallowed hindent hq
  | false =>
    have hcolumn : valueColumn step p.column name v = p.column + step := by
      cases v with
      | arr items => rw [valueColumn, hsimple, if_neg Bool.false_ne_true]
      | _ => rfl
    rw [hsimple] at hq
    rw [hcolumn] at hrest
    rw [and_iff_right (nameFits_of_not_simple hsimple)] at hq
    exact finishes_of_longMember hstep ih hfinite hsimple hahead hrest hallowed hindent hq

end Entry

/-! ## Blocks -/

/-- What follows in a block is scanned: it starts on the next line, at `column` or further out, and its
tokens are `newest`, newest first, if its names fit. -/
def ScansRest (column : Nat) (text : List Char) (newest : List Token.Kind) (fits : Prop) : Prop :=
  ∀ k r, Ahead column k r → ∃ i t, text ++ lineText k r = lineText i t ∧ Ahead column i t ∧
    ∀ (p : Point) (kinds? : Option (List Token.Kind)), p.rest = t → p.column = i → p.indent = column →
      p.keyAllowed = true → (p.below newest k r).FinishesIf fits kinds? → p.Finishes kinds?

/-- Nothing is left to scan. -/
theorem scansRest_nil (column : Nat) {fits : Prop} (hfits : fits) : ScansRest column [] [] fits := by
  intro k r hahead
  refine ⟨k, r, rfl, hahead, fun p kinds? hrest hcolumn _ hallowed hq => ?_⟩
  rw [← hrest, ← hcolumn, below_nil hallowed] at hq
  exact hq.of_fits hfits

/-- One more line at the column of a block, if it is scanned and what follows it is. -/
theorem scansRest_line {column : Nat} {line text : List Char} {newest lineKinds : List Token.Kind}
    {A B : Prop} (hopens : ∀ t, Opens (line ++ t)) (hrest : ScansRest column text newest B)
    (hscan : ∀ (p : Point) i t kinds?, Ahead p.column i t → p.rest = line ++ lineText i t →
      p.column = column → p.indent = column → p.keyAllowed = true →
      (p.below lineKinds i t).FinishesIf A kinds? → p.Finishes kinds?) :
    ScansRest column (newLine column ++ line ++ text) (newest ++ lineKinds) (A ∧ B) := by
  intro k r hahead
  obtain ⟨i, t, htext, hnext, hmore⟩ := hrest k r hahead
  refine ⟨column, line ++ lineText i t, ?_, ⟨(hopens _).start, (hopens _).separator, .inl (Int.le_refl _)⟩,
    fun p kinds? hp hcolumn hindent hallowed hq => ?_⟩
  · rw [List.append_assoc, htext]
    simp [lineText, Space.text, newLine, blanks]
  · refine hscan p i t kinds? (hcolumn ▸ hnext) hp hcolumn hindent hallowed (hq.first fun hq => ?_)
    refine hmore _ kinds? rfl rfl hindent rfl ?_
    rw [below_below]
    exact hq

/-- The items after the first, if they and what follows them are scanned. -/
theorem scansRest_item (hstep : 1 < step) {column : Nat} {v : Json} {text : List Char}
    {newest : List Token.Kind} {fits : Prop} (ih : inline? 0 v = none → ScansBlock step v)
    (hfinite : Json.OwnDoubleFinite v) (hrest : ScansRest column text newest fits) :
    ScansRest column
      (newLine column ++ '-' :: entry step column v (block step (column + step) v) ++ text)
      (newest ++ (nodeKinds false v).reverse ++ [.blockEntry]) (NamesFit v ∧ fits) := by
  rw [List.append_assoc newest]
  refine scansRest_line (fun t => opens_item hstep column v (block step (column + step) v) t) hrest ?_
  intro p i t kinds? hnext hp hcolumn hindent hallowed hq
  subst hcolumn
  refine finishes_of_item hstep ih hfinite hnext hp hallowed (Int.le_of_eq hindent) ?_
  rw [opened_of_eq hindent]
  exact hq

/-- The members after the first, if they and what follows them are scanned. -/
theorem scansRest_member (hstep : 1 < step) (name : List Char) {column : Nat} {v : Json} {text : List Char}
    {newest : List Token.Kind} {fits : Prop} (ih : inline? 0 v = none → ScansBlock step v)
    (hfinite : Json.OwnDoubleFinite v) (hrest : ScansRest column text newest fits) :
    ScansRest column
      (newLine column ++ member step column name v (block step (valueColumn step column name v) v) ++ text)
      (newest ++ (nodeKinds (isSimpleKey name) v).reverse ++ [.value, nameKind name, .key])
      ((NameFits name ∧ NamesFit v) ∧ fits) := by
  rw [List.append_assoc newest]
  refine scansRest_line (fun t => opens_member hstep column name v _ t) hrest ?_
  intro p i t kinds? hnext hp hcolumn hindent hallowed hq
  subst hcolumn
  refine finishes_of_member hstep ih hfinite hnext hp hallowed (Int.le_of_eq hindent) ?_
  rw [opened_of_eq hindent]
  exact hq

/-- A block that was opened ends where the next line is indented less. -/
theorem finishes_of_opened {kind : Token.Kind} {newest : List Token.Kind} (hlt : p.indent < p.column)
    (hahead : Ahead p.indent k r)
    (hq : (p.below (.blockEnd :: newest ++ [kind]) k r).Finishes kinds?) :
    ((p.opened kind).below newest k r).Finishes kinds? := by
  have hopened : p.opened kind =
      { p with indent := p.column, outer := p.indent :: p.outer, newest := kind :: p.newest } :=
    if_pos hlt
  rw [hopened]
  refine finishes_of_close hahead.start rfl ?_ ?_
  · dsimp only [below]
    rcases hahead.column with hk | ⟨rfl, rfl⟩
    · exact .inl (by omega)
    · rcases Nat.eq_zero_or_pos p.column with hzero | hpos
      · exact .inr ⟨rfl, by omega, by omega⟩
      · exact .inl (by omega)
  · have hclosed : (({ p with indent := p.column, outer := p.indent :: p.outer, newest := kind :: p.newest } :
        Point).below newest k r).closed p.indent p.outer =
          p.below (.blockEnd :: newest ++ [kind]) k r := by
      simp [closed, below]
    rw [hclosed]
    exact hq

/-- An array is scanned as a block if its items are: with a start and an end of its own, unless it
stands at the column of the name before it. -/
theorem scansBlock_arr (hstep : 1 < step) {v : Json} {vs : List Json}
    (ih : inline? 0 v = none → ScansBlock step v) (hfinite : Json.OwnDoubleFinite v)
    (hitems : ∀ column, ScansRest column (items step column vs) (itemKinds vs).reverse
      (∀ w ∈ vs, NamesFit w)) :
    ScansBlock step (.arr (v :: vs)) := by
  intro p k r kinds? inner hrest hallowed hsits hahead hq
  have hle : p.indent ≤ p.column := by
    cases inner with
    | true => exact Int.le_of_eq hsits
    | false => exact Int.le_of_lt hsits
  rw [namesFit_arr_iff, List.forall_mem_cons] at hq
  obtain ⟨i, t, htext, hnext, hscan⟩ := hitems p.column k r (hahead.mono hle)
  rw [block, List.append_assoc, htext] at hrest
  -- the items, and then the end of the block if it has one of its own
  have hend : ((p.opened .blockSequenceStart).below ((itemKinds vs).reverse ++
      ((nodeKinds false v).reverse ++ [.blockEntry])) k r).FinishesIf
        (NamesFit v ∧ ∀ w ∈ vs, NamesFit w) kinds? := by
    refine hq.imp fun hq => ?_
    cases inner with
    | true =>
      rw [opened_of_eq hsits]
      simpa [nodeKinds] using hq
    | false =>
      refine finishes_of_opened hsits hahead ?_
      simpa [nodeKinds] using hq
  refine finishes_of_item hstep ih hfinite hnext hrest hallowed hle (hend.first fun hend => ?_)
  refine hscan _ kinds? rfl rfl (indent_opened hle) rfl ?_
  rw [below_below]
  exact hend

/-- An object is scanned as a block if its members are. -/
theorem scansBlock_obj (hstep : 1 < step) {name : String} {v : Json} {ms : List (String × Json)}
    (ih : inline? 0 v = none → ScansBlock step v) (hfinite : Json.OwnDoubleFinite v)
    (hmembers : ∀ column, ScansRest column (members step column ms) (memberKinds ms).reverse
      (∀ m ∈ ms, NameFits m.1.toList ∧ NamesFit m.2)) :
    ScansBlock step (.obj ((name, v) :: ms)) := by
  intro p k r kinds? inner hrest hallowed hsits hahead hq
  have hlt : p.indent < p.column := by
    cases inner with
    | true => exact hsits
    | false => exact hsits
  rw [namesFit_obj_iff, List.forall_mem_cons] at hq
  obtain ⟨i, t, htext, hnext, hscan⟩ := hmembers p.column k r (hahead.mono (Int.le_of_lt hlt))
  rw [block, List.append_assoc, htext] at hrest
  have hend : ((p.opened .blockMappingStart).below ((memberKinds ms).reverse ++
      ((nodeKinds (isSimpleKey name.toList) v).reverse ++ [.value, nameKind name.toList, .key])) k r).FinishesIf
        ((NameFits name.toList ∧ NamesFit v) ∧ ∀ m ∈ ms, NameFits m.1.toList ∧ NamesFit m.2) kinds? := by
    refine hq.imp fun hq => finishes_of_opened hlt hahead ?_
    simpa [nodeKinds] using hq
  refine finishes_of_member hstep ih hfinite hnext hrest hallowed (Int.le_of_lt hlt)
    (hend.first fun hend => ?_)
  refine hscan _ kinds? rfl rfl (indent_opened (Int.le_of_lt hlt)) rfl ?_
  rw [below_below]
  exact hend

mutual

/-- A value is scanned wherever it is written as a block. -/
theorem scansBlock (hstep : 1 < step) (v : Json) (hfinite : v.FiniteDoubles)
    (hblock : inline? 0 v = none) : ScansBlock step v := by
  match v with
  | .null | .int _ | .float _ | .str _ | .arr [] | .obj [] => cases hblock
  | .bool b => cases b <;> cases hblock
  | .arr (w :: vs) =>
    obtain ⟨hfiniteW, hfiniteVs⟩ := List.forall_mem_cons.mp (Json.Everywhere.items hfinite)
    exact scansBlock_arr hstep (scansBlock hstep w hfiniteW) (Json.Everywhere.self hfiniteW)
      fun column => scansItems hstep column vs hfiniteVs
  | .obj ((name, w) :: ms) =>
    obtain ⟨hfiniteW, hfiniteMs⟩ := List.forall_mem_cons.mp (Json.Everywhere.members hfinite)
    exact scansBlock_obj hstep (scansBlock hstep w hfiniteW) (Json.Everywhere.self hfiniteW)
      fun column => scansMembers hstep column ms hfiniteMs

/-- Items after the first are scanned. -/
theorem scansItems (hstep : 1 < step) (column : Nat) (vs : List Json)
    (hfinite : ∀ v ∈ vs, Json.FiniteDoubles v) :
    ScansRest column (items step column vs) (itemKinds vs).reverse (∀ v ∈ vs, NamesFit v) := by
  match vs with
  | [] => exact scansRest_nil column (List.forall_mem_nil _)
  | v :: vs =>
    obtain ⟨hfiniteV, hfinite⟩ := List.forall_mem_cons.mp hfinite
    have hrest := scansRest_item hstep (scansBlock hstep v hfiniteV)
      (Json.Everywhere.self hfiniteV) (scansItems hstep column vs hfinite)
    rw [items, itemKinds, List.forall_mem_cons]
    simpa using hrest

/-- Members after the first are scanned. -/
theorem scansMembers (hstep : 1 < step) (column : Nat) (ms : List (String × Json))
    (hfinite : ∀ m ∈ ms, Json.FiniteDoubles m.2) :
    ScansRest column (members step column ms) (memberKinds ms).reverse
      (∀ m ∈ ms, NameFits m.1.toList ∧ NamesFit m.2) := by
  match ms with
  | [] => exact scansRest_nil column (List.forall_mem_nil _)
  | (name, v) :: ms =>
    obtain ⟨hfiniteV, hfinite⟩ := List.forall_mem_cons.mp hfinite
    have hrest := scansRest_member hstep name.toList (scansBlock hstep v hfiniteV)
      (Json.Everywhere.self hfiniteV) (scansMembers hstep column ms hfinite)
    rw [members, memberKinds, List.forall_mem_cons]
    simpa using hrest

end

/-! ## Documents -/

/-- The kinds of the tokens of a document; none if one of its names does not fit. -/
def documentKinds? (v : Json) : Option (List Token.Kind) :=
  if NamesFit v then some (documentKinds v) else none

/-- The point where a text starts. -/
def start (cs : List Char) : Point := ⟨cs, 0, -1, [], true, [.streamStart]⟩

/-- A scan starts at the start of the text. -/
theorem shows_start {cs : List Char} (h : Cursor.StartsToken cs) :
    (TokenState.start cs).Shows (Point.start cs) := by
  have hopen : (TokenState.start cs).IsOpen := by
    refine List.not_mem_cons_of_ne_of_not_mem ?_ List.not_mem_nil
    exact nofun
  exact ⟨hopen, Mark.start, [.virtual .streamStart Mark.start], ⟨rfl, rfl, by simp [start]⟩,
    settle_state (p := Point.start cs) h⟩

/-- The end of the text, behind the mark of the document's end where there is one. -/
theorem finishes_of_last (plain : Bool) (hindent : p.indent = -1) (hcolumn : p.column = 0)
    (hrest : p.rest = if plain then ['.', '.', '.', '\n'] else []) :
    p.Finishes (some (p.newest.reverse ++ ((if plain then [.documentEnd] else []) ++ [.streamEnd]))) := by
  cases plain with
  | true =>
    have hend := finishes_of_end (p := p.past .documentEnd 3 false (.line 0) []) rfl hindent
    refine finishes_of_documentEnd hrest hcolumn hindent ?_
    simpa [past] using hend
  | false =>
    have hend := finishes_of_end hrest hindent
    simpa using hend

/-- A value that opens a block is no plain scalar. -/
theorem isPlainScalar_of_inline_none {v : Json} (h : inline? step v = none) : isPlainScalar v = false := by
  match v with
  | .null | .int _ | .float _ | .str _ => cases h
  | .bool b => cases b <;> cases h
  | .arr _ | .obj _ => rfl

/-- From its start on a document is scanned. -/
theorem finishes_start (hstep : 1 < step) {v : Json} (hfinite : v.FiniteDoubles) :
    Cursor.StartsToken (document step v) ∧ (start (document step v)).Finishes (documentKinds? v) := by
  have hzero : (-1 : Int) < (0 : Nat) := by decide
  rw [document, documentKinds?]
  cases hline : inline? step v with
  | some line =>
    generalize hr : (if isPlainScalar v then "...\n".toList else []) = r
    have hstart : Cursor.StartsToken r := by
      rw [← hr]
      split
      · exact Cursor.startsToken_cons (by decide) _
      · exact Cursor.startsToken_nil
    have hlast := finishes_of_last (p := (start (line ++ '\n' :: r)).below (nodeKinds false v).reverse 0 r)
      (isPlainScalar v) rfl rfl hr.symm
    rw [if_pos (namesFit_of_inline hline)]
    refine ⟨startsToken_inline (by omega) hline (Json.Everywhere.self hfinite) _, ?_⟩
    refine finishes_of_inline false (by omega) hline (Json.Everywhere.self hfinite)
      (k := 0) rfl hstart hzero (fun hplain => .inr ⟨rfl, fun m => ?_⟩) ?_
    · rw [← hr, hplain]
      rfl
    · simpa [below, start, documentKinds] using hlast
  | none =>
    have hplain := isPlainScalar_of_inline_none hline
    have hlast := finishes_of_last (p := (start (block step 0 v ++ ['\n'])).below
      (nodeKinds false v).reverse 0 []) false rfl rfl rfl
    refine ⟨(opens_block hstep 0 hline _).start, ?_⟩
    refine scansBlock hstep v hfinite (inline?_eq_none_iff.mp hline) _ 0 [] _ false rfl rfl
      (sits_of_lt hzero rfl) ⟨Cursor.startsToken_nil, fun _ => rfl, .inr ⟨rfl, rfl⟩⟩
      ⟨fun hfits => ?_, fun hfits => if_neg hfits⟩
    rw [if_pos hfits]
    simpa [below, start, documentKinds, hplain] using hlast

/-- The tokens of a written document. -/
theorem yields_document (hstep : 1 < step) {v : Json} (hfinite : v.FiniteDoubles) :
    Yields (TokenStream.ofChars (document step v)) (documentKinds? v) := by
  obtain ⟨hstart, hfinishes⟩ := finishes_start hstep hfinite
  exact hfinishes _ (shows_start hstart) _ (Nat.le_succ _)

/-! ## The characters of a document -/

/-- What stands on the line of its entry may stand as it is. -/
theorem raw_inline {indent : Nat} (hindent : 0 < indent) {v : Json} {line : List Char}
    (hline : inline? indent v = some line) (hfinite : Json.OwnDoubleFinite v) : Raw line := by
  rcases spells_of_inline hindent hline hfinite false with
    ⟨kind, hspells, -, -⟩ | ⟨a, b, first, last, hpair, rfl, -⟩
  · exact hspells.raw
  · have hboth : ∀ q ∈ flowPairs, isRaw q.1 = true ∧ isRaw q.2.1 = true := by decide
    exact .cons (hboth _ hpair).1 (.cons (hboth _ hpair).2 .nil)

/-- So may a line break with its indentation. -/
theorem raw_newLine (column : Nat) : Raw (newLine column) := (Space.line column).raw_text

section Entry

variable {v : Json} {column : Nat} {text : List Char}

/-- So may an entry. -/
theorem raw_entry (hstep : 1 < step) (hfinite : Json.OwnDoubleFinite v) (htext : Raw text) :
    Raw (entry step column v text) := by
  rw [entry_eq hstep]
  cases hline : inline? (column + step) v with
  | some line => exact (Space.blanks 0).raw_text.append (raw_inline (by omega) hline hfinite)
  | none => exact (Space.blanks _).raw_text.append htext

/-- So may an item. -/
theorem raw_item (hstep : 1 < step) (hfinite : Json.OwnDoubleFinite v) (htext : Raw text) :
    Raw ('-' :: entry step column v text) :=
  .cons (by decide) (raw_entry hstep hfinite htext)

/-- So may a member. -/
theorem raw_member (hstep : 1 < step) (name : List Char) (hfinite : Json.OwnDoubleFinite v)
    (htext : Raw text) : Raw (member step column name v text) := by
  rw [member]
  cases hsimple : isSimpleKey name with
  | true =>
    have hspells := spells_name (show 0 < column + step by omega) hsimple
    refine hspells.raw.append (.cons (by decide) ?_)
    cases hline : inline? (column + step) v with
    | some line => exact .cons (by decide) (raw_inline (by omega) hline hfinite)
    | none => exact (raw_newLine _).append htext
  | false =>
    have hspells : Spells (Style.write false (column + step) name) (textKind false name) :=
      spells_write (by omega) name
    have hkey : Raw ('?' :: ' ' :: Style.write false (column + step) name ++ newLine column) :=
      .cons (by decide) (.cons (by decide) (hspells.raw.append (raw_newLine column)))
    exact hkey.append (.cons (by decide) (raw_entry hstep hfinite htext))

end Entry

mutual

/-- So may a block. -/
theorem raw_block (hstep : 1 < step) (column : Nat) (v : Json) (hfinite : v.FiniteDoubles) :
    Raw (block step column v) := by
  match v with
  | .null | .bool _ | .int _ | .float _ | .str _ | .arr [] | .obj [] => exact .nil
  | .arr (w :: vs) =>
    obtain ⟨hfiniteW, hfiniteVs⟩ := List.forall_mem_cons.mp (Json.Everywhere.items hfinite)
    rw [block]
    exact (raw_item hstep hfiniteW.self (raw_block hstep _ w hfiniteW)).append
      (raw_items hstep column vs hfiniteVs)
  | .obj ((name, w) :: ms) =>
    obtain ⟨hfiniteW, hfiniteMs⟩ := List.forall_mem_cons.mp (Json.Everywhere.members hfinite)
    rw [block]
    exact (raw_member hstep name.toList hfiniteW.self (raw_block hstep _ w hfiniteW)).append
      (raw_members hstep column ms hfiniteMs)

theorem raw_items (hstep : 1 < step) (column : Nat) (vs : List Json)
    (hfinite : ∀ v ∈ vs, Json.FiniteDoubles v) : Raw (items step column vs) := by
  match vs with
  | [] => exact .nil
  | v :: vs =>
    obtain ⟨hfiniteV, hfinite⟩ := List.forall_mem_cons.mp hfinite
    rw [items]
    exact ((raw_newLine column).append (raw_item hstep hfiniteV.self
      (raw_block hstep _ v hfiniteV))).append (raw_items hstep column vs hfinite)

theorem raw_members (hstep : 1 < step) (column : Nat) (ms : List (String × Json))
    (hfinite : ∀ m ∈ ms, Json.FiniteDoubles m.2) : Raw (members step column ms) := by
  match ms with
  | [] => exact .nil
  | (name, v) :: ms =>
    obtain ⟨hfiniteV, hfinite⟩ := List.forall_mem_cons.mp hfinite
    rw [members]
    exact ((raw_newLine column).append (raw_member hstep name.toList hfiniteV.self
      (raw_block hstep _ v hfiniteV))).append (raw_members hstep column ms hfinite)

end

/-- A written document has no character that may not occur in one. -/
theorem raw_document (hstep : 1 < step) {v : Json} (hfinite : v.FiniteDoubles) : Raw (document step v) := by
  rw [document]
  cases hline : inline? step v with
  | some line =>
    refine (raw_inline (by omega) hline hfinite.self).append (.cons (by decide) ?_)
    split
    · exact by decide
    · exact .nil
  | none => exact (raw_block hstep 0 v hfinite).append (by decide)

end Point

end DocDesk.Yaml
