import DocDesk.Proofs.Text.Parts
import DocDesk.Xml

/-!
# Reading XML text back

A strict reader in two steps.  A text is cut into start tags, end tags, tags of empty elements and
characters of character data, where a less-than sign opens a tag, an ampersand opens one of three
references, and the name in a tag is an element name.  The tags are then nested: an end tag closes the
innermost element that is open, and only by its name.

Main statements: `isName_of_mem_readTokens`, `Spells.append` and `Spells.element`.
-/

namespace DocDesk.Xml

/-! ## Names -/

/-- An element name: a letter or an underscore in front, and characters of a name behind it. -/
def IsName (n : List Char) : Prop :=
  (∃ c r, n = c :: r ∧ isNameStart c = true) ∧ ∀ c ∈ n, isNameChar c = true

/-- The name that is made of a text is a name. -/
theorem isName_nameOf (name : List Char) : IsName (nameOf name) := by
  refine ⟨nameOf_head name, ?_⟩
  have hkept : ∀ c ∈ name.map fun c => if isNameChar c then c else '_', isNameChar c = true := by
    intro c hc
    obtain ⟨d, -, rfl⟩ := List.mem_map.mp hc
    split
    · assumption
    · decide
  intro c hc
  unfold nameOf at hc
  simp only at hc
  split at hc
  · rw [List.mem_singleton.mp hc]
    decide
  · next c' r heq =>
    rw [heq] at hkept
    split at hc
    · exact hkept c hc
    · rcases List.mem_cons.mp hc with rfl | hc
      · decide
      · exact hkept c hc

/-! ## Tokens -/

/-- The parts of a text: tags, and the characters that stand between them. -/
inductive Token where
  | opens (name : List Char)
  | closes (name : List Char)
  | empty (name : List Char)
  | char (c : Char)
deriving DecidableEq, Repr

/-- The name in a tag. -/
def Token.name? : Token → Option (List Char)
  | .opens n | .closes n | .empty n => some n
  | .char _ => none

/-- A name, and the text behind it. -/
def readName (cs : List Char) : Option (List Char × List Char) :=
  match cs.takeWhile isNameChar with
  | [] => none
  | c :: r => if isNameStart c then some (c :: r, cs.dropWhile isNameChar) else none

/-- A tag behind its less-than sign, and the text behind it. -/
def readTag : List Char → Option (Token × List Char)
  | '/' :: cs =>
    match readName cs with
    | some (n, '>' :: rest) => some (.closes n, rest)
    | _ => none
  | cs =>
    match readName cs with
    | some (n, '>' :: rest) => some (.opens n, rest)
    | some (n, '/' :: '>' :: rest) => some (.empty n, rest)
    | _ => none

/-- The character of a reference behind its ampersand, and the text behind it. -/
def readReference : List Char → Option (Token × List Char)
  | 'a' :: 'm' :: 'p' :: ';' :: rest => some (.char '&', rest)
  | 'l' :: 't' :: ';' :: rest => some (.char '<', rest)
  | 'g' :: 't' :: ';' :: rest => some (.char '>', rest)
  | _ => none

/-- A token, and the text behind it. -/
def readToken : List Char → Option (Token × List Char)
  | [] => none
  | '<' :: cs => readTag cs
  | '&' :: cs => readReference cs
  | c :: cs => some (.char c, cs)

/-- A name that is read stands in front of the rest. -/
theorem readName_eq {cs n rest : List Char} (h : readName cs = some (n, rest)) :
    IsName n ∧ cs = n ++ rest := by
  unfold readName at h
  split at h
  · cases h
  · next c r hrun =>
    split at h
    · next hstart =>
      cases h
      have hchars : ∀ d ∈ c :: r, isNameChar d = true := fun d hd =>
        Text.of_mem_takeWhile (hrun ▸ hd)
      refine ⟨⟨⟨c, r, rfl, hstart⟩, hchars⟩, ?_⟩
      rw [← hrun, List.takeWhile_append_dropWhile]
    · cases h

/-- A tag has a name and takes characters. -/
theorem readTag_sound {cs rest : List Char} {t : Token} (h : readTag cs = some (t, rest)) :
    (∀ n ∈ t.name?, IsName n) ∧ rest.length < cs.length := by
  unfold readTag at h
  split at h
  · split at h
    · next n rest' hname =>
      cases h
      obtain ⟨hn, rfl⟩ := readName_eq hname
      refine ⟨?_, by simp; omega⟩
      rintro _ ⟨⟩
      exact hn
    · cases h
  · split at h
    · next n rest' hname =>
      cases h
      obtain ⟨hn, rfl⟩ := readName_eq hname
      refine ⟨?_, by simp; omega⟩
      rintro _ ⟨⟩
      exact hn
    · next n rest' hname =>
      cases h
      obtain ⟨hn, rfl⟩ := readName_eq hname
      refine ⟨?_, by simp; omega⟩
      rintro _ ⟨⟩
      exact hn
    · cases h

/-- A reference has no name and takes characters. -/
theorem readReference_sound {cs rest : List Char} {t : Token}
    (h : readReference cs = some (t, rest)) : t.name? = none ∧ rest.length < cs.length := by
  unfold readReference at h
  split at h <;> cases h <;> exact ⟨rfl, by simp; omega⟩

/-- A token has no other names than names and takes characters. -/
theorem readToken_sound {cs rest : List Char} {t : Token} (h : readToken cs = some (t, rest)) :
    (∀ n ∈ t.name?, IsName n) ∧ rest.length < cs.length := by
  unfold readToken at h
  split at h
  · cases h
  · obtain ⟨hn, hlt⟩ := readTag_sound h
    exact ⟨hn, Nat.lt_succ_of_lt hlt⟩
  · obtain ⟨hn, hlt⟩ := readReference_sound h
    exact ⟨by simp [hn], Nat.lt_succ_of_lt hlt⟩
  · cases h
    exact ⟨by simp [Token.name?], by simp⟩

/-- All the tokens of a text. -/
def readTokens (cs : List Char) : Option (List Token) :=
  if cs.isEmpty then some []
  else
    match _ : readToken cs with
    | none => none
    | some (t, rest) => (readTokens rest).map (t :: ·)
termination_by cs.length
decreasing_by exact (readToken_sound ‹readToken cs = some _›).2

/-- The empty text has no tokens. -/
theorem readTokens_nil : readTokens [] = some [] := by
  rw [readTokens]
  rfl

/-- A token is read in front of the others. -/
theorem readTokens_of_readToken {cs rest : List Char} {t : Token}
    (h : readToken cs = some (t, rest)) : readTokens cs = (readTokens rest).map (t :: ·) := by
  cases cs with
  | nil => cases h
  | cons c cs =>
    rw [readTokens, if_neg (by simp)]
    split
    · next hnone => rw [h] at hnone; cases hnone
    · next hsome => rw [h] at hsome; cases hsome; rfl

/-- Every tag of a text that is read has an element name in it. -/
theorem isName_of_mem_readTokens {cs : List Char} {ts : List Token} (h : readTokens cs = some ts) :
    ∀ t ∈ ts, ∀ n ∈ t.name?, IsName n := by
  fun_induction readTokens cs generalizing ts with
  | case1 => cases h; simp
  | case2 => cases h
  | case3 cs _ t rest htoken ih =>
    obtain ⟨more, hmore, heq⟩ := Option.map_eq_some_iff.mp h
    cases heq
    intro u hu
    rcases List.mem_cons.mp hu with rfl | hu
    · exact (readToken_sound htoken).1
    · exact ih hmore u hu

/-! ## What is written is cut into its tokens -/

section Cut

variable {n rest : List Char} (hn : IsName n)
include hn

/-- A name ends before the first character that may not stand in one. -/
theorem readName_append (hrest : ∀ c ∈ rest.head?, isNameChar c = false) :
    readName (n ++ rest) = some (n, rest) := by
  obtain ⟨⟨c, r, rfl, hstart⟩, hchars⟩ := hn
  unfold readName
  rw [Text.takeWhile_append_of_stop hchars hrest, Text.dropWhile_append_of_stop hchars hrest]
  simp only
  rw [if_pos hstart]

/-- An end tag is a token. -/
theorem readTokens_endTag :
    readTokens (endTag n ++ rest) = (readTokens rest).map (.closes n :: ·) := by
  have hcons : endTag n ++ rest = '<' :: '/' :: (n ++ '>' :: rest) := by simp [endTag]
  have hname : readName (n ++ '>' :: rest) = some (n, '>' :: rest) :=
    readName_append hn (by rintro _ ⟨⟩; decide)
  apply readTokens_of_readToken
  simp only [hcons, readToken, readTag, hname]

/-- Behind the less-than sign of a start tag stands no slash. -/
theorem readTag_of_name (tail : List Char) :
    readTag (n ++ tail) =
      match readName (n ++ tail) with
      | some (n, '>' :: rest) => some (.opens n, rest)
      | some (n, '/' :: '>' :: rest) => some (.empty n, rest)
      | _ => none := by
  obtain ⟨⟨c, r, rfl, hstart⟩, -⟩ := hn
  have hc : c ≠ '/' := by
    rintro rfl
    exact absurd hstart (by decide)
  rw [readTag.eq_2]
  intro cs h
  cases h
  exact hc rfl

/-- A start tag is a token. -/
theorem readTokens_startTag :
    readTokens (startTag n ++ rest) = (readTokens rest).map (.opens n :: ·) := by
  have hcons : startTag n ++ rest = '<' :: (n ++ '>' :: rest) := by simp [startTag]
  have hname : readName (n ++ '>' :: rest) = some (n, '>' :: rest) :=
    readName_append hn (by rintro _ ⟨⟩; decide)
  apply readTokens_of_readToken
  simp only [hcons, readToken, readTag_of_name hn, hname]

/-- An empty tag is a token. -/
theorem readTokens_emptyTag :
    readTokens (emptyTag n ++ rest) = (readTokens rest).map (.empty n :: ·) := by
  have hcons : emptyTag n ++ rest = '<' :: (n ++ '/' :: '>' :: rest) := by simp [emptyTag]
  have hname : readName (n ++ '/' :: '>' :: rest) = some (n, '/' :: '>' :: rest) :=
    readName_append hn (by rintro _ ⟨⟩; decide)
  apply readTokens_of_readToken
  simp only [hcons, readToken, readTag_of_name hn, hname]

end Cut

/-- A character without a meaning of its own is a token. -/
theorem readTokens_char {c : Char} (hlt : c ≠ '<') (hamp : c ≠ '&') (rest : List Char) :
    readTokens (c :: rest) = (readTokens rest).map (.char c :: ·) := by
  apply readTokens_of_readToken
  rw [readToken.eq_4 c rest hlt hamp]

/-- An escaped character is the token of the character. -/
theorem readTokens_escapedChar (c : Char) (rest : List Char) :
    readTokens (escapedChar c ++ rest) = (readTokens rest).map (.char c :: ·) := by
  unfold escapedChar
  split
  · next h => subst h; exact readTokens_of_readToken rfl
  · next hamp =>
    split
    · next h => subst h; exact readTokens_of_readToken rfl
    · next hlt =>
      split
      · next h => subst h; exact readTokens_of_readToken rfl
      · exact readTokens_char hlt hamp rest

/-! ## Nesting -/

/-- What stands in a document: elements with their content, and characters. -/
inductive Node where
  | element (name : List Char) (content : List Node)
  | char (c : Char)

/-- The nodes of a sequence of tokens, behind those that are done.  Pending are the elements that are
open, the innermost first, each with what stands in front of it; an end tag closes the first of them. -/
def nest : List (List Char × List Node) → List Node → List Token → Option (List Node)
  | [], done, [] => some done
  | _ :: _, _, [] => none
  | pending, done, .char c :: ts => nest pending (done ++ [.char c]) ts
  | pending, done, .empty n :: ts => nest pending (done ++ [.element n []]) ts
  | pending, done, .opens n :: ts => nest ((n, done) :: pending) [] ts
  | [], _, .closes _ :: _ => none
  | (m, before) :: pending, done, .closes n :: ts =>
    if n = m then nest pending (before ++ [.element m done]) ts else none

/-- The nodes of a text, behind those that are done and within the elements that are open. -/
def readNodes (pending : List (List Char × List Node)) (done : List Node) (cs : List Char) :
    Option (List Node) :=
  (readTokens cs).bind (nest pending done)

/-- A text reads as nodes wherever it stands. -/
def Spells (cs : List Char) (ns : List Node) : Prop :=
  ∀ pending done rest, readNodes pending done (cs ++ rest) = readNodes pending (done ++ ns) rest

namespace Spells

variable {a b cs n : List Char} {ns ms : List Node}

/-- Nothing spells nothing. -/
theorem nil : Spells [] [] := by
  intro pending done rest
  rw [List.nil_append, List.append_nil]

/-- Two texts spell what they spell one after the other. -/
theorem append (ha : Spells a ns) (hb : Spells b ms) : Spells (a ++ b) (ns ++ ms) := by
  intro pending done rest
  rw [List.append_assoc, ha, hb, List.append_assoc]

/-- An escaped character spells the character. -/
theorem escapedChar (c : Char) : Spells (escapedChar c) [.char c] := by
  intro pending done rest
  unfold readNodes
  rw [readTokens_escapedChar, Option.bind_map]
  congr 1
  funext ts
  simp only [Function.comp_apply, nest]

/-- Escaped text reads as the characters of the text. -/
theorem escape (cs : List Char) : Spells (escape cs) (cs.map .char) := by
  induction cs with
  | nil => exact nil
  | cons c cs ih => exact (escapedChar c).append ih

/-- Blanks read as themselves. -/
theorem blanks (h : Text.Blanks cs) : Spells cs (cs.map .char) := by
  -- none of the three characters that are escaped is a blank
  have hplain : Xml.escape cs = cs := by
    apply escape_of_plain
    intro c hc
    have hblank := h c hc
    refine ⟨?_, ?_, ?_⟩ <;> rintro rfl <;> exact absurd hblank (by decide)
  have := escape cs
  rwa [hplain] at this

/-- An empty tag spells an element without content. -/
theorem emptyTag (hn : IsName n) : Spells (emptyTag n) [.element n []] := by
  intro pending done rest
  unfold readNodes
  rw [readTokens_emptyTag hn, Option.bind_map]
  congr 1
  funext ts
  simp only [Function.comp_apply, nest]

/-- A start tag, content and the end tag of the same name read as an element with that content. -/
theorem element (hn : IsName n) (h : Spells cs ns) :
    Spells (startTag n ++ cs ++ endTag n) [.element n ns] := by
  intro pending done rest
  have hopen : ∀ text, readNodes pending done (startTag n ++ text)
      = readNodes ((n, done) :: pending) [] text := by
    intro text
    unfold readNodes
    rw [readTokens_startTag hn, Option.bind_map]
    congr 1
    funext ts
    simp only [Function.comp_apply, nest]
  have hclose : readNodes ((n, done) :: pending) ns (endTag n ++ rest)
      = readNodes pending (done ++ [.element n ns]) rest := by
    unfold readNodes
    rw [readTokens_endTag hn, Option.bind_map]
    congr 1
    funext ts
    simp only [Function.comp_apply, nest, if_true]
  rw [List.append_assoc, List.append_assoc, hopen, h, List.nil_append, hclose]

/-- A text that reads as nodes is cut into tokens that nest into them. -/
theorem readTokens_nest (h : Spells cs ns) :
    ∃ ts, readTokens cs = some ts ∧ nest [] [] ts = some ns := by
  have hread := h [] [] []
  rw [List.append_nil, List.nil_append] at hread
  have hdone : readNodes [] ns [] = some ns := by
    rw [readNodes, readTokens_nil]
    rfl
  exact Option.bind_eq_some_iff.mp (hread.trans hdone)

end Spells

end DocDesk.Xml
