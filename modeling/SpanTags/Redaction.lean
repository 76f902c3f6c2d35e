import SpanTags.Payload.Display

namespace SpanTags

namespace Redaction

def mark : Text := "redacted"

def keys : List Text := ["authorization", "password", "token", "x-authorization"]

-- In tags a secret's key counts only as it is spelled here.
def isRedacted (key : Text) : Bool :=
  key ∈ keys

-- In log records the case of the letters does not matter, and a key of another sort
-- counts by its text.
def isSensitive (key : Key) : Except TooManyDigits Bool := do
  return isRedacted (← key.toText).asciiLower

mutual

-- Replaces every secret, at any depth. Tuples become lists; all else stays as it is.
def sanitize : Value → Except TooManyDigits Value
  | .scalar s => .ok (.scalar s)
  | .list items => .list <$> sanitizeItems items
  | .tuple items => .list <$> sanitizeItems items
  | .dict entries => .dict <$> sanitizeEntries entries

def sanitizeItems : List Value → Except TooManyDigits (List Value)
  | [] => .ok []
  | v :: rest => do
    let first ← sanitize v
    let others ← sanitizeItems rest
    return first :: others

def sanitizeEntries : List (Key × Value) → Except TooManyDigits (List (Key × Value))
  | [] => .ok []
  | (key, v) :: rest => do
    let first ← if ← isSensitive key then pure (.text mark) else sanitize v
    let others ← sanitizeEntries rest
    return (key, first) :: others

end

end Redaction

end SpanTags
