import SpanTags.Text.Encoding
import SpanTags.Number.Layout

namespace SpanTags

namespace Json

-- What a document lacks at the place where reading it stopped.
inductive Cause
  | expectedValue
  | expectedName
  | expectedColon
  | expectedComma
  | extraData
  | unterminatedString
  | controlCharacter
  | unknownEscape
  | unfinishedEscape
  | byteOrderMark
deriving DecidableEq

namespace Cause

def message : Cause → Text
  | expectedValue => "Expecting value"
  | expectedName => "Expecting property name enclosed in double quotes"
  | expectedColon => "Expecting ':' delimiter"
  | expectedComma => "Expecting ',' delimiter"
  | extraData => "Extra data"
  | unterminatedString => "Unterminated string starting at"
  | controlCharacter => "Invalid control character at"
  | unknownEscape => "Invalid \\escape"
  | unfinishedEscape => "Invalid \\uXXXX escape"
  | byteOrderMark => "Unexpected UTF-8 BOM (decode using utf-8-sig)"

end Cause

-- A place in a document. Lines and columns are counted from one, and only a line feed
-- ends a line.
structure Place where
  offset : Nat
  line : Nat
  column : Nat
deriving DecidableEq

def Place.at (document : Text) (offset : Nat) : Place :=
  let before := document.take offset
  { offset
    line := before.count ('\n' : CodePoint) + 1
    column := (Text.lastPiece '\n' before).length + 1 }

def Place.message (p : Place) : Text :=
  "line " ++ Text.ofNat p.line ++ " column " ++ Text.ofNat p.column ++
    " (char " ++ Text.ofNat p.offset ++ ")"

inductive Nest
  | array
  | object
deriving DecidableEq

def Nest.message : Nest → Text
  | .array => "maximum recursion depth exceeded while decoding a JSON array from a unicode string"
  | .object => "maximum recursion depth exceeded while decoding a JSON object from a unicode string"

inductive Fault
  | syntaxAt (cause : Cause) (place : Place)
  | constant (name : Text)
  | number (fault : TooManyDigits)
  | tooDeep (nest : Nest)
  | encoding (fault : Encoding.Fault)
  | notText (typeName : Text)
deriving DecidableEq

namespace Fault

def kind : Fault → Text
  | syntaxAt _ _ => "JSONDecodeError"
  | constant _ => "ValueError"
  | number _ => "ValueError"
  | tooDeep _ => "RecursionError"
  | encoding _ => "UnicodeDecodeError"
  | notText _ => "TypeError"

def message : Fault → Text
  | syntaxAt cause place => cause.message ++ ": " ++ place.message
  | constant name => "Non-standard JSON constant: " ++ name
  | number fault => fault.message
  | tooDeep nest => nest.message
  | encoding fault => fault.message
  | notText typeName => "the JSON object must be str, bytes or bytearray, not " ++ typeName

end Fault

end Json

end SpanTags
