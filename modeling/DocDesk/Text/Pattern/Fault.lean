import DocDesk.Text.Quoted

/-!
# Faults of patterns

Why a text is no pattern, the wording of every cause, and the place that a message names.  Main
definition: `Fault.message`.
-/

namespace DocDesk.Text.Pattern

/-- Why a text is no pattern. -/
inductive Reason where
  | danglingEscape
  | missingName (what : String)
  | unterminatedName (closing : Char)
  | incompleteEscape (text : List Char)
  | octalTooLarge (text : List Char)
  | badEscape (text : List Char)
  | undefinedCharacter (name : List Char)
  | missingBrace
  | openGroup
  | groupOfSameLookBehind
  | invalidGroup (number : Nat)
  | unterminatedSet
  | badRange (first last : List Char)
  | lengthsReversed
  | nothingToRepeat
  | multipleRepeat
  | unexpectedEnd
  | unknownGroup (name : List Char)
  | badGroupName (name : List Char)
  | groupRedefined (name : List Char) (number earlier : Nat)
  | unknownExtension (text : List Char)
  | unterminatedComment
  | unterminatedGroup
  | badGroupNumber
  | tooManyBranches
  | lateOptions
  | localeOption
  | incompatibleOptions
  | optionsUnfinished
  | unknownOption
  | globalOptionOn
  | globalOptionOff
  | missingOption
  | typeOptionOff
  | missingColon
  | optionOnAndOff
  | unbalanced
  | lookBehindWidth
  | lengthTooLarge
deriving DecidableEq, Repr

/-- The wording of a cause. -/
def Reason.message : Reason → String
  | .danglingEscape => "bad escape (end of pattern)"
  | .missingName what => "missing " ++ what
  | .unterminatedName closing => "missing " ++ String.singleton closing ++ ", unterminated name"
  | .incompleteEscape text => "incomplete escape " ++ String.ofList text
  | .octalTooLarge text => "octal escape value " ++ String.ofList text ++ " outside of range 0-0o377"
  | .badEscape text => "bad escape " ++ String.ofList text
  | .undefinedCharacter name => "undefined character name " ++ String.ofList (quotedChars name)
  | .missingBrace => "missing \x7b"
  | .openGroup => "cannot refer to an open group"
  | .groupOfSameLookBehind => "cannot refer to group defined in the same lookbehind subpattern"
  | .invalidGroup number => "invalid group reference " ++ toString number
  | .unterminatedSet => "unterminated character set"
  | .badRange first last => "bad character range " ++ String.ofList first ++ "-" ++ String.ofList last
  | .lengthsReversed => "min repeat greater than max repeat"
  | .nothingToRepeat => "nothing to repeat"
  | .multipleRepeat => "multiple repeat"
  | .unexpectedEnd => "unexpected end of pattern"
  | .unknownGroup name => "unknown group name " ++ String.ofList (quotedChars name)
  | .badGroupName name => "bad character in group name " ++ String.ofList (quotedChars name)
  | .groupRedefined name number earlier =>
    "redefinition of group name " ++ String.ofList (quotedChars name) ++ " as group "
      ++ toString number ++ "; was group " ++ toString earlier
  | .unknownExtension text => "unknown extension " ++ String.ofList text
  | .unterminatedComment => "missing ), unterminated comment"
  | .unterminatedGroup => "missing ), unterminated subpattern"
  | .badGroupNumber => "bad group number"
  | .tooManyBranches => "conditional backref with more than two branches"
  | .lateOptions => "global flags not at the start of the expression"
  | .localeOption => "bad inline flags: cannot use 'L' flag with a str pattern"
  | .incompatibleOptions => "bad inline flags: flags 'a', 'u' and 'L' are incompatible"
  | .optionsUnfinished => "missing -, : or )"
  | .unknownOption => "unknown flag"
  | .globalOptionOn => "bad inline flags: cannot turn on global flag"
  | .globalOptionOff => "bad inline flags: cannot turn off global flag"
  | .missingOption => "missing flag"
  | .typeOptionOff => "bad inline flags: cannot turn off flags 'a', 'u' and 'L'"
  | .missingColon => "missing :"
  | .optionOnAndOff => "bad inline flags: flag turned on and off"
  | .unbalanced => "unbalanced parenthesis"
  | .lookBehindWidth => "look-behind requires fixed-width pattern"
  | .lengthTooLarge => "the repetition number is too large"

/-- A fault of a pattern, with its place if it has one. -/
structure Fault where
  pattern : List Char
  reason : Reason
  position : Option Nat
deriving DecidableEq, Repr

/-- The line and the column of a place, told only of patterns with several lines. -/
def lineText (pattern : List Char) (position : Nat) : String :=
  if '\n' ∈ pattern then
    let before := pattern.take position
    " (line " ++ toString (before.count '\n' + 1) ++ ", column "
      ++ toString ((before.reverse.takeWhile (· ≠ '\n')).length + 1) ++ ")"
  else ""

/-- The wording of a fault. -/
def Fault.message (f : Fault) : String :=
  match f.position with
  | some n => f.reason.message ++ " at position " ++ toString n ++ lineText f.pattern n
  | none => f.reason.message

end DocDesk.Text.Pattern
