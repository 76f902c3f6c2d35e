import SpanTags.Payload.Display

namespace SpanTags

namespace Json

structure Style where
  asciiOnly : Bool
  itemSeparator : Text
  nameSeparator : Text
  allowsNonFinite : Bool

namespace Style

-- One line of pure ASCII, whatever the value holds.
def line : Style := ⟨true, ", ", ": ", true⟩

-- No blanks; texts are left in the alphabet that they are written in.
def compact : Style := ⟨false, ",", ":", false⟩

end Style

inductive WriteFault
  | number (fault : TooManyDigits)
  | nonFinite
  | badKey (typeName : Text)
deriving DecidableEq

namespace WriteFault

def kind : WriteFault → Text
  | number _ => "ValueError"
  | nonFinite => "ValueError"
  | badKey _ => "TypeError"

def message : WriteFault → Text
  | number fault => fault.message
  | nonFinite => "Out of range float values are not JSON compliant"
  | badKey typeName => "keys must be str, int, float, bool or None, not " ++ typeName

end WriteFault

def unitEscape (n : Nat) : Text :=
  "\\u" ++ Text.ofHex 4 n

-- Past the first 65536 code points an escape takes the two surrogates.
def numberEscape (c : CodePoint) : Text :=
  if c.val < 0x10000 then unitEscape c.val
  else
    unitEscape (0xD800 + (c.val - 0x10000) / 0x400) ++
      unitEscape (0xDC00 + (c.val - 0x10000) % 0x400)

def writtenCodePoint (style : Style) (c : CodePoint) : Text :=
  if c = '"' ∨ c = '\\' then ['\\', c]
  else if c = '\n' then ['\\', 'n']
  else if c = '\r' then ['\\', 'r']
  else if c = '\t' then ['\\', 't']
  else if c = '\x0C' then ['\\', 'f']
  else if c = '\x08' then ['\\', 'b']
  else if c.val < 0x20 ∨ (style.asciiOnly ∧ 0x7F ≤ c.val) then numberEscape c
  else [c]

def writeText (style : Style) (t : Text) : Text :=
  ('"' : CodePoint) :: (t.flatMap (writtenCodePoint style) ++ "\"")

def writeFloat (style : Style) (x : Double) : Except WriteFault Text :=
  if x.isFinite then .ok x.text
  else if style.allowsNonFinite then
    .ok (match x with
      | .infinite true => "-Infinity"
      | .infinite false => "Infinity"
      | _ => "NaN")
  else .error .nonFinite

def writeInt (n : Int) : Except WriteFault Text :=
  match writeWhole n with
  | .ok t => .ok t
  | .error fault => .error (.number fault)

def writeBool (b : Bool) : Text :=
  if b then "true" else "false"

-- Bytes are written as the text that displays them.
def writeScalar (style : Style) : Scalar → Except WriteFault Text
  | .null => .ok "null"
  | .bool b => .ok (writeBool b)
  | .int n => writeInt n
  | .float x => writeFloat style x
  | .text t => .ok (writeText style t)
  | .bytes b => .ok (writeText style (Text.quotedBytes b))

def nameOf (style : Style) : Key → Except WriteFault Text
  | .scalar (.text t) => .ok t
  | .scalar .null => .ok "null"
  | .scalar (.bool b) => .ok (writeBool b)
  | .scalar (.int n) => writeInt n
  | .scalar (.float x) => writeFloat style x
  | key => .error (.badKey key.typeName)

mutual

def write (style : Style) : Value → Except WriteFault Text
  | .scalar s => writeScalar style s
  | .list items => do
    let written ← writeItems style items
    return "[" ++ Text.join style.itemSeparator written ++ "]"
  | .tuple items => do
    let written ← writeItems style items
    return "[" ++ Text.join style.itemSeparator written ++ "]"
  | .dict entries => do
    let written ← writeEntries style entries
    return "\x7b" ++ Text.join style.itemSeparator written ++ "\x7d"

def writeItems (style : Style) : List Value → Except WriteFault (List Text)
  | [] => .ok []
  | v :: rest => do
    let first ← write style v
    let others ← writeItems style rest
    return first :: others

def writeEntries (style : Style) : List (Key × Value) → Except WriteFault (List Text)
  | [] => .ok []
  | (key, v) :: rest => do
    let name ← nameOf style key
    let first ← write style v
    let others ← writeEntries style rest
    return (writeText style name ++ style.nameSeparator ++ first) :: others

end

end Json

end SpanTags
