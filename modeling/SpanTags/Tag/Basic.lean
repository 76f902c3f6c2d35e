import SpanTags.Payload.Display
import SpanTags.Redaction
import SpanTags.Ordered

namespace SpanTags

-- The value of a tag: the text of a payload's leaf, or the sign that tags are missing.
inductive TagValue
  | text (t : Text)
  | marker
deriving DecidableEq

abbrev Tags := List (Text × TagValue)

namespace Tag

def requestPath : Text := "http.payload.request"

def responsePath : Text := "http.payload.response"

def queryPath : Text := requestPath ++ ".query"

def trimmedName : Text := "_dd.payload_tags_trimmed"

def truncated : Text := "truncated"

def maxLength : Nat := 5000

-- One of the tags is the marker.
def defaultMaxTags : Nat := 758

def defaultMaxDepth : Nat := 10

-- A dot within a key is told from the dots between keys by a backslash.
def escapeKey (key : Text) : Text :=
  key.flatMap fun (c : CodePoint) => if c = '.' then ['\\', c] else [c]

def path (root : Text) (keys : List Text) : Text :=
  root ++ keys.flatMap fun key => ('.' : CodePoint) :: escapeKey key

-- The key that an entry is stored under. The root counts as stored under the last
-- part of its own name.
def ownKey (root : Text) (keys : List Text) : Text :=
  keys.getLast?.getD (Text.lastPiece '.' root)

-- Below this size a whole number needs no exponent.
def wholeLimit : Nat := 10 ^ 21

def floatText (x : Double) : Text :=
  match x.toInt? with
  | some n => if n.natAbs < wholeLimit then Text.ofInt n else x.text
  | none => x.text

def numberText : Scalar → Except TooManyDigits Text
  | .float x => .ok (floatText x)
  | s => s.toText

-- The text of a leaf. A secret is hidden if it is a text, and only the start of a long
-- text is kept.
def leafText (key : Text) : Scalar → Except TooManyDigits Text
  | .null => .ok "null"
  | .bool b => .ok (if b then "true" else "false")
  | .int n => numberText (.int n)
  | .float x => numberText (.float x)
  | .text t => .ok (if Redaction.isRedacted key then Redaction.mark else t.take maxLength)
  | .bytes b =>
    .ok (if Redaction.isRedacted key then Redaction.mark
      else (Text.quotedBytes b).take maxLength)

end Tag

end SpanTags
