import DesignTokens.Decimal.Numeral
import DesignTokens.Text.Base64
import DesignTokens.Text.Location
import DesignTokens.Text.Utf8
import DesignTokens.Value.Moment

/-! # Faults of a YAML document -/

namespace DesignTokens.Yaml

/-- A character as it is shown in a message; the end of the text is shown as the null character. -/
def shownChar (found : Option Char) : String :=
  Text.quoted (String.singleton (found.getD '\x00'))

def codeEscape (c : Char) : String :=
  let n := c.toNat
  if n ≤ 0xFF then "\\x" ++ String.ofList (Text.hexDigits 2 n)
  else if n ≤ 0xFFFF then "\\u" ++ String.ofList (Text.hexDigits 4 n)
  else "\\U" ++ String.ofList (Text.hexDigits 8 n)

/-- Why a tagged scalar has no value. -/
inductive ScalarFault
  | number (f : Decimal.NumberFault)
  | emptyNumber
  | notATruth
  | notAMoment
  | mappingForMoment
  | endlessText
  | noSuchMoment (f : MomentFault)
  | codeOutOfRange
  | codeOutOfWord
  | weightOutOfRange
  deriving DecidableEq, Repr

def ScalarFault.message : ScalarFault → String
  | number f => f.message
  | emptyNumber => "string index out of range"
  | notATruth => "not a truth value"
  | notAMoment => "not a date or a time"
  | mappingForMoment => "expected string or bytes-like object"
  | endlessText => "the text is that of the value itself"
  | noSuchMoment f => f.message
  | codeOutOfRange => "chr() arg not in range(0x110000)"
  | codeOutOfWord => "signed integer is greater than maximum"
  | weightOutOfRange => "int too large to convert to float"

/-- What stands where something else should. -/
inductive Expected
  | directiveName
  | versionDigit
  | versionPoint
  | versionEnd
  | blank
  | exclamationMark
  | uri
  | uriEnd
  | uriEscape
  | anchorName
  | lineEnd
  | blockIndicators
  | escapeDigits (count : Nat)
  deriving DecidableEq, Repr

def Expected.description : Expected → String
  | directiveName | anchorName => "alphabetic or numeric character"
  | versionDigit => "a digit"
  | versionPoint => "a digit or '.'"
  | versionEnd => "a digit or ' '"
  | blank => "' '"
  | exclamationMark => "'!'"
  | uri => "URI"
  | uriEnd => "'>'"
  | uriEscape => "URI escape sequence of 2 hexadecimal numbers"
  | lineEnd => "a comment or a line break"
  | blockIndicators => "chomping or indentation indicators"
  | escapeDigits n => "escape sequence of " ++ toString n ++ " hexadecimal numbers"

inductive Cause
  | expected (what : Expected) (found : Option Char)
  | zeroIndentation
  | noTokenStart (c : Char)
  | unknownEscape (found : Option Char)
  | endInQuotes
  | separatorInQuotes
  | uriNotUtf8 (f : Text.Utf8Fault)
  | entryNotAllowed
  | keyNotAllowed
  | valueNotAllowed
  | colonExpected
  | repeatedVersion
  | otherVersion
  | repeatedHandle (handle : String)
  | unknownHandle (handle : String)
  | documentStartExpected (found : String)
  | contentExpected (found : String)
  | blockEndExpected (found : String)
  | closerExpected (closer found : String)
  | unknownAlias (name : String)
  | repeatedAnchor
  | anotherDocument
  | unknownTag (uri : String)
  | nodeExpected (kind found : String)
  | mergeExpected (found : String)
  | mergeItemExpected (found : String)
  | collectionExpected (kind found : String)
  | singlePairExpected (pairs : Nat)
  | keyNotHashable
  /-- A number of characters from a position on, with the first of them. -/
  | binaryNotAscii (position count : Nat) (first : Char)
  | binaryMalformed (f : Text.Base64Fault)
  | scalar (f : ScalarFault)
  deriving DecidableEq, Repr

def Cause.message : Cause → String
  | expected what found =>
    "expected " ++ what.description ++ ", but found " ++ shownChar found
  | zeroIndentation => "expected indentation indicator in the range 1-9, but found 0"
  | noTokenStart c => "found character " ++ shownChar c ++ " that cannot start any token"
  | unknownEscape found => "found unknown escape character " ++ shownChar found
  | endInQuotes => "found unexpected end of stream"
  | separatorInQuotes => "found unexpected document separator"
  | uriNotUtf8 f => f.message
  | entryNotAllowed => "sequence entries are not allowed here"
  | keyNotAllowed => "mapping keys are not allowed here"
  | valueNotAllowed => "mapping values are not allowed here"
  | colonExpected => "could not find expected ':'"
  | repeatedVersion => "found duplicate YAML directive"
  | otherVersion => "found incompatible YAML document (version 1.* is required)"
  | repeatedHandle h => "duplicate tag handle " ++ Text.quoted h
  | unknownHandle h => "found undefined tag handle " ++ Text.quoted h
  | documentStartExpected found =>
    "expected '<document start>', but found " ++ Text.quoted found
  | contentExpected found => "expected the node content, but found " ++ Text.quoted found
  | blockEndExpected found => "expected <block end>, but found " ++ Text.quoted found
  | closerExpected closer found =>
    "expected ',' or '" ++ closer ++ "', but got " ++ Text.quoted found
  | unknownAlias name => "found undefined alias " ++ Text.quoted name
  | repeatedAnchor => "second occurrence"
  | anotherDocument => "but found another document"
  | unknownTag uri => "could not determine a constructor for the tag " ++ Text.quoted uri
  | nodeExpected kind found => "expected a " ++ kind ++ " node, but found " ++ found
  | mergeExpected found =>
    "expected a mapping or list of mappings for merging, but found " ++ found
  | mergeItemExpected found => "expected a mapping for merging, but found " ++ found
  | collectionExpected kind found => "expected a " ++ kind ++ ", but found " ++ found
  | singlePairExpected n =>
    "expected a single mapping item, but found " ++ toString n ++ " items"
  | keyNotHashable => "found unhashable key"
  | binaryNotAscii position count first =>
    "failed to convert base64 data into ascii: 'ascii' codec can't encode " ++
      (if count = 1 then "character '" ++ codeEscape first ++ "' in position " ++ toString position
        else "characters in position " ++ toString position ++ "-" ++
          toString (position + count - 1)) ++
      ": ordinal not in range(128)"
  | binaryMalformed f => "failed to decode base64 data: " ++ f.message
  | scalar f => f.message

/-- A cause where `left` characters of the text are left. -/
structure LocalFault where
  cause : Cause
  left : Nat
  deriving DecidableEq, Repr

/-- Why a text is no document. -/
inductive Fault
  | unprintable (c : Char) (position : Nat)
  | malformed (cause : Cause) (location : Location)
  deriving DecidableEq, Repr

end DesignTokens.Yaml
