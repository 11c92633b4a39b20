import DocDesk.Proofs.Schema.Additional
import DocDesk.Proofs.Schema.Complete
import DocDesk.Proofs.Schema.Required

/-!
# Values that fit their keywords

A keyword about a single value does not break off if its own value fits: a type has a name, a bound is a
number, a divisor is a number other than zero, a pattern can be read.  Some values fit only if something
is known of the document: a divisor that is no integer asks for numbers that are finite, and the format
of patterns for texts that can be told to be patterns or none.

Main statements: `Assertion.succeeds_issues` and `Assertion.shown_of_mem_issues`.
-/

namespace DocDesk.Schema

/-! ## Conditions on values -/

/-- A text. -/
def isText : Json → Bool
  | .str _ => true
  | _ => false

/-- An array. -/
def isArray : Json → Bool
  | .arr _ => true
  | _ => false

/-- An object. -/
def isObject : Json → Bool
  | .obj _ => true
  | _ => false

/-- An array with a condition on its items. -/
def allItems (p : Json → Bool) : Json → Bool
  | .arr vs => vs.all p
  | _ => false

/-- An object with a condition on its members. -/
def allMembers (p : String → Json → Bool) : Json → Bool
  | .obj ms => ms.all fun m => p m.1 m.2
  | _ => false

/-- A text by itself, or the items of an array, with a condition on each. -/
def allListed (p : Json → Bool) : Json → Bool
  | .str s => p (.str s)
  | v => allItems p v

/-- A condition on objects only. -/
def ifObject (p : Json → Bool) : Json → Bool
  | .obj ms => p (.obj ms)
  | _ => true

/-- One value, or each item of an array, with a condition. -/
def oneOrEach (p : Json → Bool) : Json → Bool
  | .arr vs => vs.all p
  | v => p v

/-- One object, or each item of an array, with a condition. -/
def objectOrEach (p : Json → Bool) : Json → Bool
  | .obj ms => p (.obj ms)
  | v => allItems p v

/-- A member is not there, or its value meets a condition. -/
def ifMember (ms : List (String × Json)) (name : String) (p : Json → Bool) : Bool :=
  (Json.member? ms name).all p

/-- Asking every item of a value asks for an array. -/
theorem allItems_iff {p : Json → Bool} {v : Json} :
    allItems p v = true ↔ ∃ vs, v = .arr vs ∧ ∀ x ∈ vs, p x = true := by
  cases v <;> simp [allItems]

/-- Asking every member of a value asks for an object. -/
theorem allMembers_iff {p : String → Json → Bool} {v : Json} :
    allMembers p v = true ↔ ∃ ms, v = .obj ms ∧ ∀ m ∈ ms, p m.1 m.2 = true := by
  cases v <;> simp [allMembers]

/-- Texts are the texts. -/
theorem isText_iff {v : Json} : isText v = true ↔ ∃ s, v = .str s := by
  cases v <;> simp [isText]

/-- Objects are the objects. -/
theorem isObject_iff {v : Json} : isObject v = true ↔ ∃ ms, v = .obj ms := by
  cases v <;> simp [isObject]

/-- Arrays are the arrays. -/
theorem isArray_iff {v : Json} : isArray v = true ↔ ∃ vs, v = .arr vs := by
  cases v <;> simp [isArray]

/-- What is asked of a member is asked only where it is there. -/
theorem ifMember_iff {ms : List (String × Json)} {name : String} {p : Json → Bool} :
    ifMember ms name p = true ↔ ∀ v, Json.member? ms name = some v → p v = true := by
  rw [ifMember, Option.all_eq_true]

/-- What is listed can be gone through. -/
theorem exists_of_allListed {p : Json → Bool} {v : Json} (h : allListed p v = true) :
    ∃ vs, Shape.oneOrItems v = .ok vs ∧ ∀ x ∈ vs, p x = true := by
  cases v with
  | str s => exact ⟨[.str s], rfl, List.forall_mem_singleton.mpr h⟩
  | arr vs => exact ⟨vs, rfl, List.all_eq_true.mp h⟩
  | null | bool _ | int _ | float _ | obj _ => cases h

/-! ## What is known of a document -/

/-- A text that is a pattern, or that is none for another reason than its size. -/
def canBeTold (text : String) : Bool :=
  match Text.Pattern.parse text with
  | .ok _ => true
  | .error f => f.reason ≠ .lengthTooLarge

/-- The texts right at a value can be told. -/
def hasToldTexts : Json → Bool
  | .str s => canBeTold s
  | .obj ms => ms.all fun m => canBeTold m.1
  | _ => true

/-- The number right at a value is no larger than a double. -/
def hasFiniteNumber : Json → Bool
  | .int i => (Binary64.ofInt? i).isSome
  | .float x => x.isFinite
  | _ => true

/-- Whether all texts of a document can be told, and whether all its numbers are finite. -/
structure Known where
  texts : Bool
  numbers : Bool

namespace Known

/-- All that is known of a document. -/
def ofDocument (v : Json) : Known :=
  ⟨Json.everywhere hasToldTexts v, Json.everywhere hasFiniteNumber v⟩

/-- What is known of a document is so. -/
structure Holds (k : Known) (v : Json) : Prop where
  texts : k.texts = true → v.Everywhere (hasToldTexts · = true)
  numbers : k.numbers = true → v.Everywhere (hasFiniteNumber · = true)

/-- What is known of a document holds of it. -/
theorem holds_ofDocument (v : Json) : (ofDocument v).Holds v where
  texts := (Json.everywhere_iff hasToldTexts v).mp
  numbers := (Json.everywhere_iff hasFiniteNumber v).mp

variable {k : Known} {v : Json}

/-- What holds of an array holds of its items. -/
theorem Holds.item {vs : List Json} (h : k.Holds (.arr vs)) (hv : v ∈ vs) : k.Holds v where
  texts hk := (h.texts hk).items v hv
  numbers hk := (h.numbers hk).items v hv

/-- What holds of an object holds of the values of its members. -/
theorem Holds.member {ms : List (String × Json)} {m : String × Json} (h : k.Holds (.obj ms))
    (hm : m ∈ ms) : k.Holds m.2 where
  texts hk := (h.texts hk).members m hm
  numbers hk := (h.numbers hk).members m hm

/-- And of their names. -/
theorem Holds.name {ms : List (String × Json)} {m : String × Json} (h : k.Holds (.obj ms))
    (hm : m ∈ ms) : k.Holds (.str m.1) where
  texts hk := by
    have hnames : (ms.all fun m => canBeTold m.1) = true := (h.texts hk).self
    exact .scalar rfl (List.all_eq_true.mp hnames m hm)
  numbers _ := .scalar rfl rfl

end Known

/-! ## Keywords about a single value -/

/-- A text that can be read as a pattern. -/
def isPattern (text : String) : Bool := (Text.Pattern.parse text).toBool

/-- The name of a type under a draft. -/
def isTypeName (d : Draft) : Json → Bool
  | .str name =>
    name ∈ ["array", "boolean", "integer", "null", "number", "object", "string"] ||
      name = "any" && d = .draft3
  | _ => false

/-- An integer other than zero that is not too large for a double. -/
def isDivisor : Json → Bool
  | .int n => n ≠ 0 && (Binary64.ofInt? n).isSome
  | _ => false

/-- A double other than zero. -/
def isFraction : Json → Bool
  | .float (.finite _ rank) => rank.val ≠ 0
  | _ => false

/-- A text that can be read as a pattern, as a value. -/
def isPatternText : Json → Bool
  | .str p => isPattern p
  | _ => false

/-- The name of a format, except for that of patterns. -/
def isFormat : Json → Bool
  | .str name => name ≠ "regex"
  | _ => false

/-- The value fits a keyword about a single value, with what is known of the document. -/
def Assertion.fits (d : Draft) (k : Known) (argument : Json) : Assertion → Bool
  | type => allListed (isTypeName d) argument
  | enum => isArray argument
  | const | uniqueItems => true
  | multipleOf => isDivisor argument || k.numbers && isFraction argument
  | minimum | maximum | exclusiveMinimum | exclusiveMaximum | minimumOrAbove | maximumOrBelow
  | minLength | maxLength | minItems | maxItems | minProperties | maxProperties => argument.isNumber
  | pattern => isPatternText argument
  | format => isFormat argument || k.texts && isText argument
  | required => allItems isText argument
  | dependentRequired => allMembers (fun _ names => allItems isText names) argument

/-! ## Numbers -/

/-- A number is an integer or a double. -/
theorem isNumber_iff {v : Json} : v.isNumber = true ↔ (∃ i, v = .int i) ∨ ∃ x, v = .float x := by
  cases v <;> simp [Json.isNumber]

/-- Numbers are compared without a failure. -/
theorem succeeds_compare {sign : String} {a b : Json} (ha : a.isNumber = true) (hb : b.isNumber = true) :
    Succeeds (Shape.compare sign a b) := by
  obtain ⟨i, rfl⟩ | ⟨x, rfl⟩ := isNumber_iff.mp ha
  · obtain ⟨j, rfl⟩ | ⟨y, rfl⟩ := isNumber_iff.mp hb
    · exact .ok
    · exact .ok
  · obtain ⟨j, rfl⟩ | ⟨y, rfl⟩ := isNumber_iff.mp hb
    · exact .ok
    · exact .ok

/-- A divisor is an integer, not zero, and small enough to be a double. -/
theorem exists_of_isDivisor {v : Json} (h : isDivisor v = true) :
    ∃ n, v = .int n ∧ n ≠ 0 ∧ Binary64.ofInt? n ≠ none := by
  cases v with
  | int n =>
    obtain ⟨hzero, hdouble⟩ := Bool.and_eq_true_iff.mp h
    exact ⟨n, rfl, of_decide_eq_true hzero, Option.isSome_iff_ne_none.mp hdouble⟩
  | null | bool _ | float _ | str _ | arr _ | obj _ => cases h

/-! ## Texts -/

/-- A text that is a pattern is one that can be read as a pattern. -/
theorem exists_of_isPatternText {v : Json} (h : isPatternText v = true) :
    ∃ p, v = .str p ∧ isPattern p = true := by
  cases v with
  | str p => exact ⟨p, rfl, h⟩
  | null | bool _ | int _ | float _ | arr _ | obj _ => cases h

/-- A fraction is a finite double that is not zero. -/
theorem exists_of_isFraction {v : Json} (h : isFraction v = true) :
    ∃ negative rank, v = .float (.finite negative rank) ∧ rank.val ≠ 0 := by
  cases v with
  | float y =>
    cases y with
    | finite negative rank => exact ⟨negative, rank, rfl, of_decide_eq_true h⟩
    | nan | infinite _ => cases h
  | null | bool _ | int _ | str _ | arr _ | obj _ => cases h

/-- A format is a name, and not that of patterns. -/
theorem exists_of_isFormat {v : Json} (h : isFormat v = true) :
    ∃ name, v = .str name ∧ name ≠ "regex" := by
  cases v with
  | str name => exact ⟨name, rfl, of_decide_eq_true h⟩
  | null | bool _ | int _ | float _ | arr _ | obj _ => cases h

/-- A pattern occurs in a text or does not. -/
theorem succeeds_patternOccurs {pattern text : String} (h : isPattern pattern = true) :
    Succeeds (patternOccurs pattern text) := by
  unfold patternOccurs
  unfold isPattern at h
  cases hparse : Text.Pattern.parse pattern with
  | ok p => exact .ok
  | error f =>
    rw [hparse] at h
    cases h

/-- A text that can be told is told to be a pattern or none. -/
theorem exists_of_holds_regex {text : String} (h : canBeTold text = true) :
    ∃ fine, Format.holds "regex" text = .ok fine := by
  unfold Format.holds
  unfold canBeTold at h
  dsimp only
  cases hparse : Text.Pattern.parse text with
  | ok p => exact ⟨true, rfl⟩
  | error f =>
    rw [hparse] at h
    exact ⟨false, if_neg (of_decide_eq_true h)⟩

/-- Only texts that are asked to be patterns are read. -/
theorem exists_of_holds {name : String} (hname : name ≠ "regex") (text : String) :
    ∃ fine, Format.holds name text = .ok fine := by
  unfold Format.holds
  dsimp only
  split
  case h_8 => exact absurd rfl hname
  all_goals exact ⟨_, rfl⟩

/-- The name of a type tells of every value whether it is of the type. -/
theorem isType?_ne_none {d : Draft} {name : String} (h : isTypeName d (.str name) = true) (v : Json) :
    d.isType? name v ≠ none := by
  rw [isTypeName, Bool.or_eq_true, Bool.and_eq_true] at h
  unfold Draft.isType?
  split
  case h_10 =>
    rcases h with h | ⟨-, h⟩
    · exact absurd h (by decide)
    · rw [if_pos (of_decide_eq_true h)]
      exact nofun
  case h_11 hany _ _ _ _ _ _ _ _ _ =>
    rcases h with h | ⟨h, -⟩
    · rw [if_pos (of_decide_eq_true h)]
      exact nofun
    · exact absurd (of_decide_eq_true h) hany
  all_goals exact nofun

namespace Assertion

variable {d : Draft} {s : Site}

/-- An integer other than zero divides every number. -/
theorem succeeds_isMultiple_of_isDivisor {data divisor : Json} (hdivisor : isDivisor divisor = true)
    (hdata : data.isNumber = true) : Succeeds (isMultiple data divisor) := by
  obtain ⟨n, hn, hzero, hdouble⟩ := exists_of_isDivisor hdivisor
  have hnumbers : divisor.withNumbers = .int n := by
    rw [hn]
    rfl
  fun_cases isMultiple data divisor
  case case1 | case2 | case3 => cases hn
  case case4 hwhole | case7 hwhole =>
    rw [hnumbers] at hwhole
    exact absurd (Json.int.inj hwhole) hzero
  case case6 hlarge hwhole _ _ =>
    rw [hnumbers] at hwhole
    cases hwhole
    exact absurd hlarge hdouble
  case case5 | case8 | case9 => exact .ok
  case case10 hint hfloat =>
    obtain ⟨i, rfl⟩ | ⟨x, rfl⟩ := isNumber_iff.mp hdata
    · exact (hint n i hnumbers rfl).elim
    · exact (hfloat n x hnumbers rfl).elim

/-- It can be said whether the quotient of two finite numbers is whole: one that is too large is divided
by the counts of both. -/
theorem succeeds_isQuotientWhole {data : Json} {a b : Bool} {r s : Fin rankLimit} (hs : s.val ≠ 0) :
    Succeeds (isQuotientWhole data (.finite a r) (.finite b s)) := by
  obtain ⟨n, hquotient⟩ : ∃ n, Binary64.div? (.finite a r) (.finite b s) =
      some (Binary64.ofRank (a != b) n) := by
    rw [Binary64.div?, if_neg hs]
    exact ⟨_, rfl⟩
  unfold isQuotientWhole
  rw [hquotient]
  unfold Binary64.ofRank
  split
  · next hquotient => cases hquotient
  · next hquotient => split at hquotient <;> cases hquotient
  · split
    · exact .ok
    · exact .ok
    · next hcount => cases hcount
  · exact .ok

/-- A double other than zero divides every number that is finite. -/
theorem succeeds_isMultiple_of_isFraction {data divisor : Json} (hdivisor : isFraction divisor = true)
    (hdata : data.isNumber = true) (hfinite : hasFiniteNumber data = true) :
    Succeeds (isMultiple data divisor) := by
  obtain ⟨negative, rank, hfloat, hrank⟩ := exists_of_isFraction hdivisor
  fun_cases isMultiple data divisor
  case case1 y i x hx =>
    have hkept : x.isFinite = true := by
      rw [Binary64.ofInt?] at hx
      split at hx
      · next hin => exact Option.some.inj hx ▸ hin
      · cases hx
    cases hfloat
    cases x with
    | finite a r => exact succeeds_isQuotientWhole hrank
    | nan | infinite _ => cases hkept
  case case2 y i hlarge =>
    rw [hasFiniteNumber, hlarge] at hfinite
    cases hfinite
  case case3 y x =>
    cases hfloat
    cases x with
    | finite a r => exact succeeds_isQuotientWhole hrank
    | nan | infinite _ => cases hfinite
  case case4 hint _ _ | case5 _ _ hint _ => exact (hint _ _ hfloat rfl).elim
  case case6 _ hdouble | case8 _ hdouble | case9 _ hdouble => exact (hdouble _ _ hfloat rfl).elim
  case case7 hdouble _ => exact (hdouble _ _ hfloat rfl).elim
  case case10 hint hdouble _ _ =>
    obtain ⟨i, rfl⟩ | ⟨x, rfl⟩ := isNumber_iff.mp hdata
    · exact (hint _ _ hfloat rfl).elim
    · exact (hdouble _ _ hfloat rfl).elim

/-- A bound that is a number is checked. -/
theorem succeeds_boundIssues {sign words : String} {wrong : Ordering → Bool}
    (h : s.argument.isNumber = true) : Succeeds (boundIssues s sign wrong words) := by
  rw [boundIssues]
  split
  · exact .ok
  · next hdata =>
    rw [Bool.not_eq_true', Bool.not_eq_false] at hdata
    exact (succeeds_compare hdata h).bind fun _ _ => .ok

/-- So is a smallest size. -/
theorem succeeds_leastIssues {size : Option Nat} {words : String} (h : s.argument.isNumber = true) :
    Succeeds (leastIssues s size words) := by
  unfold leastIssues
  split
  · exact .ok
  · exact (succeeds_compare rfl h).bind fun _ _ => .ok

/-- So is a greatest size. -/
theorem succeeds_mostIssues {size : Option Nat} {words : String} (h : s.argument.isNumber = true) :
    Succeeds (mostIssues s size words) := by
  unfold mostIssues
  split
  · exact .ok
  · exact (succeeds_compare rfl h).bind fun _ _ => .ok

/-- A type is found in a value or not. -/
theorem succeeds_isOfType {schema data type : Json} (h : isTypeName d type = true) :
    Succeeds (isOfType d schema data type) := by
  cases type with
  | str name =>
    rw [isOfType]
    cases htype : d.isType? name data with
    | none => exact absurd htype (isType?_ne_none h data)
    | some b => exact .ok
  | null | bool _ | int _ | float _ | arr _ | obj _ => cases h

/-- A list of types is checked. -/
theorem succeeds_typeIssues (h : allListed (isTypeName d) s.argument = true) :
    Succeeds (typeIssues d s) := by
  obtain ⟨types, hargument, htypes⟩ := exists_of_allListed h
  rw [typeIssues, hargument]
  exact Succeeds.ok.bind fun _ heq => by
    cases heq
    exact (Succeeds.anyM fun type htype => succeeds_isOfType (htypes type htype)).bind fun _ _ => .ok

/-- Names that are texts are there or missing. -/
theorem succeeds_missingOf {ms : List (String × Json)} {names : List Json}
    (h : ∀ n ∈ names, isText n = true) : Succeeds (missingOf ms names) := by
  induction names with
  | nil => exact .ok
  | cons n names ih =>
    obtain ⟨hn, hnames⟩ := List.forall_mem_cons.mp h
    obtain ⟨text, rfl⟩ := isText_iff.mp hn
    rw [missingOf]
    exact Succeeds.ok.bind fun _ _ => (ih hnames).bind fun _ _ => .ok

/-- Missing names are told. -/
theorem succeeds_missingIssues {names : Json} {words : Json → String}
    (h : allItems isText names = true) : Succeeds (missingIssues s names words) := by
  obtain ⟨listed, rfl, hlisted⟩ := allItems_iff.mp h
  rw [missingIssues]
  split
  · refine Succeeds.ok.bind fun _ hitems => ?_
    cases hitems
    exact (succeeds_missingOf hlisted).bind fun _ _ => .ok
  · exact .ok

/-- They are told of the site itself. -/
theorem exists_of_mem_missingIssues {names : Json} {words : Json → String} {is : List Issue} {i : Issue}
    (h : missingIssues s names words = .ok is) (hi : i ∈ is) : ∃ message, i = s.issue message := by
  rw [missingIssues] at h
  split at h
  · obtain ⟨listed, -, h⟩ := exists_of_bind_eq_ok h
    obtain ⟨missing, -, h⟩ := exists_of_bind_eq_ok h
    cases h
    obtain ⟨n, -, rfl⟩ := List.mem_map.mp hi
    exact ⟨_, rfl⟩
  · cases h
    cases hi

/-- Lists of names that members ask for are checked. -/
theorem succeeds_dependentRequiredIssues
    (h : allMembers (fun _ names => allItems isText names) s.argument = true) :
    Succeeds (dependentRequiredIssues s) := by
  obtain ⟨dependencies, hargument, hdependencies⟩ := allMembers_iff.mp h
  rw [dependentRequiredIssues]
  split
  · rw [hargument]
    refine Succeeds.ok.bind fun _ hmembers => ?_
    cases hmembers
    refine (Succeeds.mapM fun dependency hdependency => ?_).bind fun _ _ => .ok
    exact succeeds_missingIssues (hdependencies dependency (List.mem_filter.mp hdependency).1)
  · exact .ok

/-- A pattern is checked. -/
theorem succeeds_pattern (h : isPatternText s.argument = true) : Succeeds (issues d s .pattern) := by
  obtain ⟨p, hargument, hp⟩ := exists_of_isPatternText h
  rw [issues]
  split
  · next harg =>
    rw [hargument] at harg
    cases harg
    exact (succeeds_patternOccurs hp).bind fun _ _ => .ok
  · next hother => exact (hother p hargument).elim
  · exact .ok

/-- A format is checked; that of patterns only where the value is known to be no text. -/
theorem succeeds_format {k : Known} (hknown : k.Holds s.data)
    (h : (isFormat s.argument || k.texts && isText s.argument) = true) :
    Succeeds (issues d s .format) := by
  obtain ⟨name, hargument, hname⟩ : ∃ name, s.argument = .str name ∧
      (name = "regex" → k.texts = true) := by
    rcases Bool.or_eq_true_iff.mp h with hformat | hboth
    · obtain ⟨name, hargument, hname⟩ := exists_of_isFormat hformat
      exact ⟨name, hargument, fun heq => absurd heq hname⟩
    · obtain ⟨htexts, htext⟩ := Bool.and_eq_true_iff.mp hboth
      obtain ⟨name, hargument⟩ := isText_iff.mp htext
      exact ⟨name, hargument, fun _ => htexts⟩
  rw [issues, hargument]
  split
  · next harr => cases harr
  · next hobj => cases hobj
  · next text _ hdata harg =>
    cases harg
    obtain ⟨fine, hholds⟩ : ∃ fine, Format.holds name text = .ok fine := by
      by_cases hregex : name = "regex"
      · have htold := (hknown.texts (hname hregex)).self
        rw [hdata] at htold
        rw [hregex]
        exact exists_of_holds_regex htold
      · exact exists_of_holds hregex text
    rw [hholds]
    exact .ok
  · exact .ok

/-- A keyword about a single value whose own value fits does not break off. -/
theorem succeeds_issues {a : Assertion} {k : Known} (hknown : k.Holds s.data)
    (hfits : a.fits d k s.argument = true) : Succeeds (a.issues d s) := by
  cases a with
  | type => exact succeeds_typeIssues hfits
  | enum =>
    obtain ⟨vs, hargument⟩ := isArray_iff.mp hfits
    rw [issues, hargument]
    exact Succeeds.ok.bind fun _ _ => .ok
  | const => exact .ok
  | multipleOf =>
    rw [issues]
    split
    · exact .ok
    · next hdata =>
      rw [Bool.not_eq_true', Bool.not_eq_false] at hdata
      refine Succeeds.bind ?_ fun _ _ => .ok
      rcases Bool.or_eq_true_iff.mp hfits with hinteger | hboth
      · exact succeeds_isMultiple_of_isDivisor hinteger hdata
      · obtain ⟨hnumbers, hfraction⟩ := Bool.and_eq_true_iff.mp hboth
        exact succeeds_isMultiple_of_isFraction hfraction hdata (hknown.numbers hnumbers).self
  | minimum | maximum | exclusiveMinimum | exclusiveMaximum | minimumOrAbove | maximumOrBelow =>
    exact succeeds_boundIssues hfits
  | minLength | minItems | minProperties => exact succeeds_leastIssues hfits
  | maxLength | maxItems | maxProperties => exact succeeds_mostIssues hfits
  | pattern => exact succeeds_pattern hfits
  | format => exact succeeds_format hknown hfits
  | uniqueItems =>
    rw [issues]
    split
    · exact .ok
    · exact .ok
  | required => exact succeeds_missingIssues hfits
  | dependentRequired => exact succeeds_dependentRequiredIssues hfits

end Assertion

/-! ## Issues that can be shown -/

namespace Issue.Shown

variable {i : Issue}

/-- The missing names of a list of texts can be shown. -/
theorem of_required (hkeyword : i.keyword = some "required") (h : allItems isText i.argument = true) :
    i.Shown := by
  obtain ⟨names, hargument, hnames⟩ := allItems_iff.mp h
  refine of_params ?_
  unfold Issue.params
  split
  · rw [hargument]
    refine Succeeds.ok.bind fun _ hitems => ?_
    cases hitems
    exact (Assertion.succeeds_missingOf hnames).bind fun _ _ => .ok
  · next hother _ =>
    rw [hkeyword] at hother
    exact absurd (Option.some.inj hother) (by decide)
  · exact .ok

/-- The names that an object under a keyword does not list can be shown. -/
theorem of_additional {listing : List (String × Json)} (hkeyword : i.keyword = some "additionalProperties")
    (hschema : i.schema = .obj listing) (h : ifMember listing "properties" isObject = true) :
    i.Shown := by
  refine of_params ?_
  unfold Issue.params
  split
  · next hother _ =>
    rw [hkeyword] at hother
    exact absurd (Option.some.inj hother) (by decide)
  · rw [hschema, membersOf]
    cases hmember : Json.member? listing "properties" with
    | none => exact Succeeds.ok.bind fun _ _ => .ok
    | some v =>
      obtain ⟨ps, rfl⟩ := isObject_iff.mp (ifMember_iff.mp h v hmember)
      exact Succeeds.ok.bind fun _ _ => .ok
  · exact .ok

/-- An issue of any other keyword can be shown. -/
theorem of_own {s : Site} (h : s.Own i) (hrequired : s.keyword ≠ "required")
    (hadditional : s.keyword ≠ "additionalProperties") : i.Shown := by
  have hkeyword : ∀ k ∈ [some s.keyword, some "minContains", some "maxContains"],
      k ≠ some "required" ∧ k ≠ some "additionalProperties" := by
    simpa using And.intro hrequired hadditional
  exact of_keyword (hkeyword _ h.keyword).1 (hkeyword _ h.keyword).2

end Issue.Shown

/-- The issues of a keyword about a single value can be shown. -/
theorem Assertion.shown_of_mem_issues {d : Draft} {k : Known} {s : Site} {a : Assertion}
    {is : List Issue} (hrule : d.rule? s.keyword = some (.assertion a))
    (hfits : a.fits d k s.argument = true) (h : a.issues d s = .ok is) : ∀ i ∈ is, i.Shown := by
  have hadditional : s.keyword ≠ "additionalProperties" := by
    intro heq
    rw [heq, rule?_additionalProperties] at hrule
    cases hrule
  by_cases hrequired : s.keyword = "required"
  · have ha : a = .required := by
      rw [hrequired] at hrule
      rcases rule?_required d with hnone | hown
      · rw [hnone] at hrule
        cases hrule
      · rw [hown] at hrule
        cases hrule
        rfl
    subst ha
    intro i hi
    obtain ⟨message, rfl⟩ := Assertion.exists_of_mem_missingIssues h hi
    exact .of_required (congrArg some hrequired) hfits
  · exact fun i hi => .of_own (Assertion.Raises.issues d s a is h i hi) hrequired hadditional

end DocDesk.Schema
