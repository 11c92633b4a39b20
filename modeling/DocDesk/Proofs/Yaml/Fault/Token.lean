import DocDesk.Proofs.Steps
import DocDesk.Yaml.Token.Stream

/-!
# Faults of tokens

A text that cannot be cut into tokens is malformed at some place.  Two numbers within tokens are
exceptions: the number of a character that does not exist, and a number of a version with too many digits.

Main statement: `TokenStream.ofTokens_fault`.
-/

namespace DocDesk.Yaml

/-- A fault of the form of a text. -/
def Fault.IsMalformed (f : Fault) : Prop := ∃ m, f = .malformed m

/-- A fault of a number within a token: no character has it, or it has too many digits. -/
inductive ValueFault.OfToken : ValueFault → Prop
  | codePoint {n : Nat} : 0x110000 ≤ n → OfToken (.codePoint n)
  | version {digits : Nat} : digitLimit < digits → OfToken (.whole (.digits (.unreadable digits)))

/-- A fault that is found while tokens are cut off. -/
inductive Fault.OfTokens : Fault → Prop
  | malformed (m : Malformed) : OfTokens (.malformed m)
  | number {f : ValueFault} : f.OfToken → OfTokens (.value f)

/-- A step that fails for nothing else than a fault of tokens. -/
abbrev Cuts (x : Except Fault α) : Prop := FailsWith Fault.OfTokens x

/-- A fault of the form is one of cutting tokens. -/
theorem cuts_malformed {context : Context} {since : Mark} {problem : Problem} {place : Mark} :
    Cuts (malformed context since problem place : Except Fault α) := .error (.malformed _)

/-- So is one at a place without a context. -/
theorem cuts_malformedAt {problem : Problem} {place : Mark} :
    Cuts (malformedAt problem place : Except Fault α) := .error (.malformed _)

/-- Passing the rest of a line fails only as a cut may. -/
theorem cuts_restOfLine (context : Context) (since : Mark) (c : Cursor) : Cuts (restOfLine context since c) := by
  rw [restOfLine]
  split
  · exact .ok
  · exact cuts_malformed

/-! ## Quoted scalars -/

namespace Quoted

/-- So does the character of a code point. -/
theorem cuts_charOf (n : Nat) : Cuts (charOf n) := by
  rw [charOf]
  split
  · exact .ok
  · split
    · exact .ok
    · next hlarge => exact .error (.number (.codePoint (Nat.le_of_not_lt hlarge)))

/-- Line breaks between quotes are cut off, or the cut fails. -/
theorem cuts_breaks (since : Mark) (fuel : Nat) (c : Cursor) : Cuts (breaks since fuel c) := by
  induction fuel generalizing c with
  | zero => exact .ok
  | succ fuel ih =>
    rw [breaks]
    split
    · exact cuts_malformed
    · dsimp only
      split
      · exact .ok
      · exact .bind (ih _) fun _ => .ok

/-- A numbered escape is cut off, or the cut fails. -/
theorem cuts_numberedEscape (since : Mark) (digits : Nat) (c : Cursor) :
    Cuts (numberedEscape since digits c) := by
  rw [numberedEscape]
  split
  · exact cuts_malformed
  · exact .bind (cuts_charOf _) fun _ => .ok

/-- An escape is cut off, or the cut fails. -/
theorem cuts_escape (since : Mark) (c : Cursor) : Cuts (escape since c) := by
  rw [escape]
  split
  · exact .ok
  · split
    · exact .bind (cuts_numberedEscape _ _ _) fun _ => .ok
    · split
      · exact cuts_breaks _ _ _
      · exact cuts_malformed

/-- A part without blanks is cut off, or the cut fails. -/
theorem cuts_solid (double : Bool) (since : Mark) (fuel : Nat) (c : Cursor) :
    Cuts (solid double since fuel c) := by
  induction fuel generalizing c with
  | zero => exact .ok
  | succ fuel ih =>
    rw [solid]
    dsimp only
    split
    · exact .bind (ih _) fun _ => .ok
    · split
      · exact .bind (ih _) fun _ => .ok
      · split
        · exact .bind (cuts_escape _ _) fun _ => .bind (ih _) fun _ => .ok
        · exact .ok

/-- A gap between such parts is cut off, or the cut fails. -/
theorem cuts_gap (since : Mark) (c : Cursor) : Cuts (gap since c) := by
  rw [gap]
  dsimp only
  split
  · exact cuts_malformed
  · split
    · exact .ok
    · exact .bind (cuts_breaks _ _ _) fun _ => .ok

/-- The text between quotes is cut off, or the cut fails. -/
theorem cuts_body (double : Bool) (since : Mark) (fuel : Nat) (c : Cursor) :
    Cuts (body double since fuel c) := by
  induction fuel generalizing c with
  | zero => exact .ok
  | succ fuel ih =>
    rw [body]
    refine .bind (cuts_solid _ _ _ _) fun ⟨part, next⟩ => ?_
    dsimp only
    by_cases hclosed : next.peek = if double then '"' else '\''
    · rw [if_pos hclosed]
      exact .ok
    · rw [if_neg hclosed]
      exact .bind (cuts_gap _ _) fun _ => .bind (ih _) fun _ => .ok

end Quoted

/-- A quoted text is cut off, or the cut fails. -/
theorem cuts_quotedToken (double : Bool) (c : Cursor) : Cuts (quotedToken double c) :=
  .bind (Quoted.cuts_body _ _ _ _) fun _ => .ok

/-! ## Block scalars -/

/-- The digit of a block text is read, or the cut fails. -/
theorem Block.cuts_increment (since : Mark) (c : Cursor) : Cuts (increment since c) := by
  rw [increment]
  split
  · exact cuts_malformed
  · split
    · exact .ok
    · exact .ok

/-- The signs of a block text are read, or the cut fails. -/
theorem Block.cuts_indicators (since : Mark) (c : Cursor) : Cuts (indicators since c) := by
  have hend (header : Chomping × Option Nat × Cursor) :
      Cuts (if Cursor.isBlankOrStop header.2.2.peek then .ok ((header.1, header.2.1), header.2.2)
        else malformed (.scanning "a block scalar") since
          (.expected .blockIndicators header.2.2.peek)
          header.2.2.place : Except Fault (Cut (Chomping × Option Nat))) := by
    split
    · exact .ok
    · exact cuts_malformed
  rw [indicators]
  split
  · exact .bind (cuts_increment _ _) fun _ => .bind .ok hend
  · refine .bind (cuts_increment _ _) fun increment => ?_
    dsimp only
    split
    · exact .bind .ok hend
    · exact .bind .ok hend

/-- A block text is cut off, or the cut fails. -/
theorem cuts_blockToken (folded : Bool) (indent : Int) (c : Cursor) : Cuts (blockToken folded indent c) :=
  .bind (Block.cuts_indicators _ _) fun _ => .bind (cuts_restOfLine _ _ _) fun _ => .ok

/-! ## Anchors, tags and directives -/

/-- A name of an anchor is cut off, or the cut fails. -/
theorem cuts_anchorName (what : String) (c : Cursor) : Cuts (anchorName what c) := by
  rw [anchorName]
  dsimp only
  split
  · exact cuts_malformed
  · split
    · exact .ok
    · exact cuts_malformed

/-- Escaped bytes of a tag are read, or the cut fails. -/
theorem cuts_uriBytes (what : String) (since : Mark) (fuel : Nat) (c : Cursor) :
    Cuts (uriBytes what since fuel c) := by
  induction fuel generalizing c with
  | zero => exact .ok
  | succ fuel ih =>
    rw [uriBytes]
    split
    · dsimp only
      split
      · exact cuts_malformed
      · exact .bind (ih _) fun _ => .ok
    · exact .ok

/-- Escaped characters of a tag are read, or the cut fails. -/
theorem cuts_uriEscapes (what : String) (since : Mark) (c : Cursor) : Cuts (uriEscapes what since c) := by
  refine .bind (cuts_uriBytes _ _ _ _) fun ⟨bytes, next⟩ => ?_
  dsimp only
  split
  · exact .ok
  · exact cuts_malformed

/-- The parts of a tag are read, or the cut fails. -/
theorem cuts_uriParts (what : String) (since : Mark) (fuel : Nat) (c : Cursor) :
    Cuts (uriParts what since fuel c) := by
  induction fuel generalizing c with
  | zero => exact .ok
  | succ fuel ih =>
    rw [uriParts]
    dsimp only
    split
    · exact .bind (cuts_uriEscapes _ _ _) fun _ => .bind (ih _) fun _ => .ok
    · exact .ok

/-- The end of a tag is read, or the cut fails. -/
theorem cuts_tagUri (what : String) (since : Mark) (c : Cursor) : Cuts (tagUri what since c) := by
  rw [tagUri]
  split
  · exact .bind (cuts_uriParts _ _ _ _) fun _ => .ok
  · exact cuts_malformed

/-- The handle of a tag is read, or the cut fails. -/
theorem cuts_tagHandle (what : String) (since : Mark) (c : Cursor) : Cuts (tagHandle what since c) := by
  rw [tagHandle]
  split
  · exact cuts_malformed
  · split
    · exact .ok
    · dsimp only
      split
      · exact .ok
      · exact cuts_malformed

/-- The words of a tag are read, or the cut fails. -/
theorem cuts_tagWords (c : Cursor) : Cuts (tagWords c) := by
  rw [tagWords]
  dsimp only
  split
  · refine .bind (cuts_tagUri _ _ _) fun ⟨uri, next⟩ => ?_
    dsimp only
    split
    · exact .ok
    · exact cuts_malformed
  · split
    · exact .ok
    · split
      · exact .bind (cuts_tagHandle _ _ _) fun _ => .bind (cuts_tagUri _ _ _) fun _ => .ok
      · exact .bind .ok fun _ => .bind (cuts_tagUri _ _ _) fun _ => .ok

/-- A tag is cut off, or the cut fails. -/
theorem cuts_tagToken (c : Cursor) : Cuts (tagToken c) := by
  refine .bind (cuts_tagWords _) fun ⟨⟨handle, suffix⟩, next⟩ => ?_
  dsimp only
  split
  · exact .ok
  · exact cuts_malformed

/-- A number of a version is read, or the cut fails. -/
theorem cuts_versionNumber (since : Mark) (c : Cursor) : Cuts (versionNumber since c) := by
  rw [versionNumber]
  dsimp only
  split
  · exact cuts_malformed
  · split
    · exact .ok
    · next f hf =>
      rw [readDigits] at hf
      split at hf
      · next hlong =>
        cases hf
        exact .error (.number (.version hlong))
      · cases hf

/-- A version is read, or the cut fails. -/
theorem cuts_versionDirective (since : Mark) (c : Cursor) : Cuts (versionDirective since c) := by
  refine .bind (cuts_versionNumber _ _) fun ⟨major, next⟩ => ?_
  dsimp only
  split
  · exact cuts_malformed
  · refine .bind (cuts_versionNumber _ _) fun ⟨minor, next⟩ => ?_
    dsimp only
    split
    · exact .ok
    · exact cuts_malformed

/-- A handle with what it stands for is read, or the cut fails. -/
theorem cuts_handleDirective (since : Mark) (c : Cursor) : Cuts (handleDirective since c) := by
  refine .bind (cuts_tagHandle _ _ _) fun ⟨handle, next⟩ => ?_
  dsimp only
  split
  · exact cuts_malformed
  · refine .bind (cuts_tagUri _ _ _) fun ⟨expansion, next⟩ => ?_
    dsimp only
    split
    · exact .ok
    · exact cuts_malformed

/-- The name of a directive is read, or the cut fails. -/
theorem cuts_directiveName (since : Mark) (c : Cursor) : Cuts (directiveName since c) := by
  rw [directiveName]
  dsimp only
  split
  · exact .ok
  · exact cuts_malformed

/-- A directive is cut off, or the cut fails. -/
theorem cuts_directiveToken (c : Cursor) : Cuts (directiveToken c) := by
  refine .bind (cuts_directiveName _ _) fun name => ?_
  have hrest (content : Cut Directive) : Cuts (do
      let next := if content.1 = .other then content.2.skip (fun ch => !Cursor.isLineEnd ch)
        else content.2
      let next ← restOfLine (.scanning "a directive") c.place next
      .ok (⟨.directive content.1, c.place, content.2.place⟩, next) : Except Fault (Cut Token)) :=
    .bind (cuts_restOfLine _ _ _) fun _ => .ok
  dsimp only
  split
  · exact .bind (cuts_versionDirective _ _) hrest
  · split
    · exact .bind (cuts_handleDirective _ _) hrest
    · exact .bind .ok hrest

/-! ## The tokens of a text -/

namespace TokenState

/-- That a key needs its colon is a fault of cutting tokens. -/
theorem cuts_missingColon (here : Mark) (k : PendingKey) :
    Cuts (missingColon here k : Except Fault α) := cuts_malformed

/-- Keys that can be none any more are dropped, or one of them needs its colon. -/
theorem cuts_dropStale (s : TokenState) : Cuts s.dropStale := by
  rw [dropStale]
  split
  · exact cuts_missingColon _ _
  · exact .ok

/-- The pending key of a level is dropped, or it needs its colon. -/
theorem cuts_dropKey (s : TokenState) : Cuts s.dropKey := by
  rw [dropKey]
  split
  · exact cuts_missingColon _ _
  · exact .ok

/-- A place is kept for a key, or the key before it needs its colon. -/
theorem cuts_saveKey (s : TokenState) : Cuts s.saveKey := by
  rw [saveKey]
  split
  · exact .bind (cuts_dropKey _) fun _ => .ok
  · exact .ok

/-- A token that is put behind a key that is given up. -/
theorem cuts_of_dropKey (s : TokenState) {f : TokenState → TokenState} :
    Cuts (s.dropKey >>= fun s => .ok (f s)) :=
  .bind (cuts_dropKey _) fun _ => .ok

/-- The sign of an item is cut off, or it may not stand there. -/
theorem cuts_blockEntry (s : TokenState) : Cuts s.blockEntry := by
  rw [blockEntry]
  split
  · exact cuts_malformedAt
  · exact cuts_of_dropKey _

/-- The sign of a key is cut off, or it may not stand there. -/
theorem cuts_key (s : TokenState) : Cuts s.key := by
  rw [key]
  split
  · exact cuts_malformedAt
  · exact cuts_of_dropKey _

/-- The sign of a value is cut off, or it may not stand there. -/
theorem cuts_value (s : TokenState) : Cuts s.value := by
  rw [value]
  split
  · exact .ok
  · split
    · exact cuts_malformedAt
    · exact cuts_of_dropKey _

/-- Whatever comes next, a token is cut off, or the cut fails. -/
theorem cuts_cut (s : TokenState) : Cuts s.cut := by
  have hnamed : ∀ what kind, Cuts (s.named what kind) := fun what kind =>
    .bind (cuts_saveKey _) fun _ => .bind (cuts_anchorName _ _) fun _ => .ok
  have hblock : ∀ folded, Cuts (s.blockScalar folded) := fun folded =>
    .bind (cuts_dropKey _) fun _ => .bind (cuts_blockToken _ _ _) fun _ => .ok
  have hquoted : ∀ double, Cuts (s.quotedScalar double) := fun double =>
    .bind (cuts_saveKey _) fun _ => .bind (cuts_quotedToken _ _) fun _ => .ok
  have hopen : ∀ kind, Cuts (s.openFlow kind) := fun kind => .bind (cuts_saveKey _) fun _ => .ok
  have hclose : ∀ kind, Cuts (s.closeFlow kind) := fun kind => .bind (cuts_dropKey _) fun _ => .ok
  have hseparator : ∀ kind, Cuts (s.separator kind) := fun kind => .bind (cuts_dropKey _) fun _ => .ok
  rw [cut]
  refine .ite (.bind (cuts_dropKey _) fun _ => .ok) ?_
  refine .ite (.bind (cuts_dropKey _) fun _ => .bind (cuts_directiveToken _) fun _ => .ok) ?_
  refine .ite (hseparator _) (.ite (hseparator _) ?_)
  refine .ite (hopen _) (.ite (hopen _) ?_)
  refine .ite (hclose _) (.ite (hclose _) ?_)
  refine .ite (.bind (cuts_dropKey _) fun _ => .ok) ?_
  refine .ite (cuts_blockEntry _) (.ite (cuts_key _) (.ite (cuts_value _) ?_))
  refine .ite (hnamed _ _) (.ite (hnamed _ _) ?_)
  refine .ite (.bind (cuts_saveKey _) fun _ => .bind (cuts_tagToken _) fun _ => .ok) ?_
  refine .ite (hblock _) (.ite (hblock _) ?_)
  refine .ite (hquoted _) (.ite (hquoted _) ?_)
  exact .ite (.bind (cuts_saveKey _) fun _ => .ok) (.error (.malformed _))

/-- So does a step of the scan. -/
theorem cuts_step (s : TokenState) : Cuts s.step :=
  .bind (cuts_dropStale _) fun _ => .bind (cuts_cut _) fun _ => cuts_dropStale _

end TokenState

/-- The fault behind the tokens is one of cutting them. -/
theorem TokenStream.ofTokens_collect {fuel : Nat} {s : TokenState} {f : Fault}
    (h : (collect fuel s).fault = some f) : f.OfTokens := by
  induction fuel generalizing s with
  | zero => cases h
  | succ fuel ih =>
    rw [collect] at h
    split at h
    · cases h
    · split at h
      · exact ih h
      · next hstep =>
        cases h
        exact TokenState.cuts_step _ _ hstep

/-- A text is cut into tokens up to a malformed place, or a number that is none. -/
theorem TokenStream.ofTokens_fault {cs : List Char} {f : Fault}
    (h : (TokenStream.ofChars cs).fault = some f) : f.OfTokens :=
  ofTokens_collect h

end DocDesk.Yaml
