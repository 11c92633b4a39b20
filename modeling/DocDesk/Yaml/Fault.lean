import DocDesk.Number.Whole
import DocDesk.Text.Split
import DocDesk.Text.Utf8
import DocDesk.Yaml.Cursor

/-!
# Faults of YAML text

A text is at fault because a character may not occur in it, because it is malformed at a place, or
because a scalar does not stand for a value of its kind.  A malformed place is told with what was
being read, and since where.

Main definition: `Fault.message`.
-/

namespace DocDesk.Yaml

/-- The three kinds of node. -/
inductive NodeKind where
  | scalar
  | sequence
  | mapping
deriving DecidableEq, Repr

/-- The word for a kind of node. -/
def NodeKind.text : NodeKind → String
  | .scalar => "scalar"
  | .sequence => "sequence"
  | .mapping => "mapping"

/-- What was being read where a fault was found. -/
inductive Context where
  | scanning (what : String)
  | parsing (what : String)
  | constructing (what : String)
  | singleDocument
  | firstAnchor (name : String)
deriving DecidableEq, Repr

/-- The wording of a context. -/
def Context.message : Context → String
  | .scanning what => "while scanning " ++ what
  | .parsing what => "while parsing " ++ what
  | .constructing what => "while constructing " ++ what
  | .singleDocument => "expected a single document in the stream"
  | .firstAnchor name => "found duplicate anchor " ++ Text.quoted name ++ "; first occurrence"

/-- What had to stand where another character was found. -/
inductive Expectation where
  | word
  | versionPoint
  | versionEnd
  | digit
  | blank
  | commentOrBreak
  | bang
  | uri
  | uriEscape
  | tagEnd
  | blockIndicators
  | hexEscape (digits : Nat)
deriving DecidableEq, Repr

/-- The wording of an expectation. -/
def Expectation.text : Expectation → String
  | .word => "alphabetic or numeric character"
  | .versionPoint => "a digit or '.'"
  | .versionEnd => "a digit or ' '"
  | .digit => "a digit"
  | .blank => "' '"
  | .commentOrBreak => "a comment or a line break"
  | .bang => "'!'"
  | .uri => "URI"
  | .uriEscape => "URI escape sequence of 2 hexadecimal numbers"
  | .tagEnd => "'>'"
  | .blockIndicators => "chomping or indentation indicators"
  | .hexEscape n => "escape sequence of " ++ String.ofList (natText n) ++ " hexadecimal numbers"

/-- What is wrong at a place. -/
inductive Problem where
  | missingColon
  | noToken (found : Char)
  | misplaced (what : String)
  | expected (what : Expectation) (found : Char)
  | zeroIndent
  | unexpectedEnd
  | unknownEscape (found : Char)
  | separatorInQuotes
  | uriBytes (fault : Utf8.Fault)
  | noDocumentStart (found : String)
  | repeatedVersion
  | otherVersion
  | repeatedHandle (handle : String)
  | unknownHandle (handle : String)
  | noContent (found : String)
  | noBlockEnd (found : String)
  | noSeparator (close : Char) (found : String)
  | unknownAlias (name : String)
  | otherDocument
  | secondAnchor
  | unknownTag (tag : String)
  | notOfKind (wanted found : NodeKind)
  | unusableKey
  | mergeItem (found : NodeKind)
  | mergeValue (found : NodeKind)
  | notSequence (found : NodeKind)
  | notPair (found : NodeKind)
  | severalPairs (count : Nat)
  | notAscii (reason : String)
  | notBase64 (reason : String)
deriving DecidableEq, Repr

/-- The wording of a problem. -/
def Problem.message : Problem → String
  | .missingColon => "could not find expected ':'"
  | .noToken c => "found character " ++ Text.quoted (String.singleton c) ++ " that cannot start any token"
  | .misplaced what => what ++ " are not allowed here"
  | .expected what c =>
    "expected " ++ what.text ++ ", but found " ++ Text.quoted (String.singleton c)
  | .zeroIndent => "expected indentation indicator in the range 1-9, but found 0"
  | .unexpectedEnd => "found unexpected end of stream"
  | .unknownEscape c => "found unknown escape character " ++ Text.quoted (String.singleton c)
  | .separatorInQuotes => "found unexpected document separator"
  | .uriBytes f => f.message
  | .noDocumentStart found => "expected '<document start>', but found " ++ Text.quoted found
  | .repeatedVersion => "found duplicate YAML directive"
  | .otherVersion => "found incompatible YAML document (version 1.* is required)"
  | .repeatedHandle h => "duplicate tag handle " ++ Text.quoted h
  | .unknownHandle h => "found undefined tag handle " ++ Text.quoted h
  | .noContent found => "expected the node content, but found " ++ Text.quoted found
  | .noBlockEnd found => "expected <block end>, but found " ++ Text.quoted found
  | .noSeparator close found =>
    "expected ',' or " ++ Text.quoted (String.singleton close) ++ ", but got " ++ Text.quoted found
  | .unknownAlias name => "found undefined alias " ++ Text.quoted name
  | .otherDocument => "but found another document"
  | .secondAnchor => "second occurrence"
  | .unknownTag tag => "could not determine a constructor for the tag " ++ Text.quoted tag
  | .notOfKind wanted found => "expected a " ++ wanted.text ++ " node, but found " ++ found.text
  | .unusableKey => "found unhashable key"
  | .mergeItem found => "expected a mapping for merging, but found " ++ found.text
  | .mergeValue found => "expected a mapping or list of mappings for merging, but found " ++ found.text
  | .notSequence found => "expected a sequence, but found " ++ found.text
  | .notPair found => "expected a mapping of length 1, but found " ++ found.text
  | .severalPairs n =>
    "expected a single mapping item, but found " ++ String.ofList (natText n) ++ " items"
  | .notAscii reason => "failed to convert base64 data into ascii: " ++ reason
  | .notBase64 reason => "failed to decode base64 data: " ++ reason

/-- A malformed place. -/
structure Malformed where
  context : Option Context
  since : Option Mark
  problem : Problem
  place : Mark
deriving DecidableEq, Repr

/-- The wording of a malformed place in a text. -/
def Malformed.message (text : List Char) (m : Malformed) : List Char :=
  let shown := m.since.filter fun s => s.line ≠ m.place.line || s.column ≠ m.place.column
  Text.join ['\n'] ((m.context.map fun c => c.message.toList).toList
    ++ (shown.map (Mark.message text)).toList
    ++ [m.problem.message.toList, m.place.message text])

/-- Why a scalar does not stand for a value of its kind, or a value cannot be written. -/
inductive ValueFault where
  | whole (fault : Whole.Fault)
  | radix (base : Nat) (text : String)
  | notNumber (text : String)
  | emptyNumeral
  | notBool (text : String)
  | notTimestamp
  | timestampOfMapping
  | timestamp (fault : Timestamp.Fault)
  | codePoint (value : Nat)
  | keyKind (kind : String)
  | circular
  | unwritable (fault : DigitFault)
  | tooDeep
deriving DecidableEq, Repr

/-- The wording of such a fault. -/
def ValueFault.message : ValueFault → String
  | .whole f => f.message
  | .radix base text =>
    "invalid literal for int() with base " ++ String.ofList (natText base) ++ ": "
      ++ String.ofList ((Text.quotedChars text.toList).take 200)
  | .notNumber text => "could not convert string to float: " ++ Text.quoted text
  | .emptyNumeral => "string index out of range"
  | .notBool text => Text.quoted text
  | .notTimestamp => "'NoneType' object has no attribute 'groupdict'"
  | .timestampOfMapping => "expected string or bytes-like object, got 'list'"
  | .timestamp f => f.message
  | .codePoint n =>
    if n < 2 ^ 31 then "chr() arg not in range(0x110000)"
    else "Python int too large to convert to C int"
  | .keyKind kind => "keys must be str, int, float, bool or None, not " ++ kind
  | .circular => "Circular reference detected"
  | .unwritable f => f.message
  | .tooDeep => "maximum recursion depth exceeded"

/-- Why a YAML text cannot be read. -/
inductive Fault where
  | unacceptable (found : Char) (index : Nat)
  | malformed (fault : Malformed)
  | value (fault : ValueFault)
deriving DecidableEq, Repr

/-- The wording of a fault of a text. -/
def Fault.message (text : List Char) : Fault → String
  | .unacceptable c index =>
    "unacceptable character #x" ++ String.ofList (Text.hexText 4 c.toNat)
      ++ ": special characters are not allowed\n  in \"<unicode string>\", position "
      ++ String.ofList (natText index)
  | .malformed m => String.ofList (m.message text)
  | .value f => f.message

end DocDesk.Yaml
