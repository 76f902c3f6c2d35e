import SpanTags.Text.Basic

namespace SpanTags

namespace Encoding

inductive Reason
  | invalidStart
  | invalidContinuation
  | unexpectedEnd
  | truncated
  | illegalEncoding
  | illegalSurrogate
  | surrogateCodePoint
  | outOfRange
deriving DecidableEq

namespace Reason

def message : Reason → Text
  | invalidStart => "invalid start byte"
  | invalidContinuation => "invalid continuation byte"
  | unexpectedEnd => "unexpected end of data"
  | truncated => "truncated data"
  | illegalEncoding => "illegal encoding"
  | illegalSurrogate => "illegal UTF-16 surrogate"
  | surrogateCodePoint => "code point in surrogate code point range(0xd800, 0xe000)"
  | outOfRange => "code point not in range(0x110000)"

end Reason

-- The byte orders of the wide encodings are read apart from each other.
inductive Form
  | utf8
  | utf16 (bigEndian : Bool)
  | utf32 (bigEndian : Bool)
deriving DecidableEq

namespace Form

def name : Form → Text
  | utf8 => "utf-8"
  | utf16 false => "utf-16-le"
  | utf16 true => "utf-16-be"
  | utf32 false => "utf-32-le"
  | utf32 true => "utf-32-be"

end Form

-- What stands at the front of a byte sequence: a code point and the number of its
-- bytes, or the number of bytes that encode nothing.
inductive Front
  | char (c : CodePoint) (width : Nat)
  | bad (width : Nat) (reason : Reason)

def isTail (b : UInt8) : Bool :=
  0x80 ≤ b && b ≤ 0xBF

-- The second byte that a lead byte admits. The narrower ranges shut out overlong
-- forms, surrogates and numbers past the last code point.
def isSecond (lead b : UInt8) : Bool :=
  if lead = 0xE0 then 0xA0 ≤ b && b ≤ 0xBF
  else if lead = 0xED then 0x80 ≤ b && b ≤ 0x9F
  else if lead = 0xF0 then 0x90 ≤ b && b ≤ 0xBF
  else if lead = 0xF4 then 0x80 ≤ b && b ≤ 0x8F
  else isTail b

def leadWidth? (lead : UInt8) : Option Nat :=
  if lead < 0x80 then some 1
  else if lead < 0xC2 then none
  else if lead < 0xE0 then some 2
  else if lead < 0xF0 then some 3
  else if lead < 0xF5 then some 4
  else none

def tailBits (b : UInt8) : Nat :=
  b.toNat % 0x40

def leadBits (width : Nat) (lead : UInt8) : Nat :=
  if width = 1 then lead.toNat
  else if width = 2 then lead.toNat % 0x20
  else if width = 3 then lead.toNat % 0x10
  else lead.toNat % 0x8

def codePointOf (n width : Nat) : Front :=
  match CodePoint.ofNat? n with
  | some c => .char c width
  | none => .bad width .outOfRange

-- Reads the `owed` last bytes of a sequence; `read` bytes stand before them.
def utf8Tail (number : Nat) : Nat → Nat → List UInt8 → Front
  | read, 0, _ => codePointOf number read
  | read, _ + 1, [] => .bad read .unexpectedEnd
  | read, owed + 1, b :: rest =>
    if isTail b then utf8Tail (number * 0x40 + tailBits b) (read + 1) owed rest
    else .bad read .invalidContinuation

def utf8Front (lead : UInt8) (rest : List UInt8) : Front :=
  match leadWidth? lead with
  | none => .bad 1 .invalidStart
  | some 1 => codePointOf lead.toNat 1
  | some width =>
    match rest with
    | [] => .bad 1 .unexpectedEnd
    | b :: more =>
      if isSecond lead b then
        utf8Tail (leadBits width lead * 0x40 + tailBits b) 2 (width - 2) more
      else .bad 1 .invalidContinuation

def unit16 (bigEndian : Bool) (a b : UInt8) : Nat :=
  if bigEndian then a.toNat * 0x100 + b.toNat else b.toNat * 0x100 + a.toNat

def utf16Front (bigEndian : Bool) (bytes : List UInt8) : Front :=
  match bytes with
  | a :: b :: rest =>
    let first := unit16 bigEndian a b
    if 0xDC00 ≤ first && first ≤ 0xDFFF then .bad 2 .illegalEncoding
    else if 0xD800 ≤ first && first ≤ 0xDBFF then
      match rest with
      | c :: d :: _ =>
        let second := unit16 bigEndian c d
        if 0xDC00 ≤ second && second ≤ 0xDFFF then
          codePointOf (0x10000 + (first - 0xD800) * 0x400 + (second - 0xDC00)) 4
        else .bad 2 .illegalSurrogate
      | _ => .bad (2 + rest.length) .unexpectedEnd
    else codePointOf first 2
  | _ => .bad bytes.length .truncated

def utf32Front (bigEndian : Bool) (bytes : List UInt8) : Front :=
  match bytes with
  | a :: b :: c :: d :: _ =>
    let number :=
      if bigEndian then unit16 true a b * 0x10000 + unit16 true c d
      else unit16 false c d * 0x10000 + unit16 false a b
    if 0xD800 ≤ number && number ≤ 0xDFFF then .bad 4 .surrogateCodePoint
    else codePointOf number 4
  | _ => .bad bytes.length .truncated

def front (form : Form) (lead : UInt8) (rest : List UInt8) : Front :=
  match form with
  | .utf8 => utf8Front lead rest
  | .utf16 bigEndian => utf16Front bigEndian (lead :: rest)
  | .utf32 bigEndian => utf32Front bigEndian (lead :: rest)

-- A surrogate that stands alone, written as if it were a character.
def loneSurrogate? (form : Form) (bytes : List UInt8) : Option (CodePoint × Nat) :=
  let pick (number width : Nat) : Option (CodePoint × Nat) :=
    (CodePoint.ofNat? number).bind fun c => if c.isSurrogate then some (c, width) else none
  match form, bytes with
  | .utf8, a :: b :: c :: _ =>
    if a / 0x10 = 0xE && isTail b && isTail c then
      pick ((leadBits 3 a * 0x40 + tailBits b) * 0x40 + tailBits c) 3
    else none
  | .utf16 bigEndian, a :: b :: _ => pick (unit16 bigEndian a b) 2
  | .utf32 true, a :: b :: c :: d :: _ => pick (unit16 true a b * 0x10000 + unit16 true c d) 4
  | .utf32 false, a :: b :: c :: d :: _ => pick (unit16 false c d * 0x10000 + unit16 false a b) 4
  | _, _ => none

-- The bytes at fault, from `start` on for `width` bytes; `first` is the first of them.
structure Fault where
  form : Form
  start : Nat
  width : Nat
  first : UInt8
  reason : Reason
deriving DecidableEq

def Fault.message (f : Fault) : Text :=
  let whereText : Text :=
    if f.width = 1 then
      "byte 0x" ++ Text.ofHex 2 f.first.toNat ++ " in position " ++ Text.ofNat f.start
    else
      "bytes in position " ++ Text.ofNat f.start ++ "-" ++ Text.ofNat (f.start + f.width - 1)
  "'" ++ f.form.name ++ "' codec can't decode " ++ whereText ++ ": " ++ f.reason.message

inductive Policy
  | strict
  | keepSurrogates
  | replace
deriving DecidableEq

-- Decodes with the number of bytes still covered by the last code point in `skip`;
-- `position` counts the bytes read.
def decodeFrom (form : Form) (policy : Policy) :
    Nat → Nat → List UInt8 → Except Fault Text
  | _, _, [] => .ok []
  | position, skip + 1, _ :: rest => decodeFrom form policy (position + 1) skip rest
  | position, 0, b :: rest =>
    match front form b rest with
    | .char c width => (c :: ·) <$> decodeFrom form policy (position + 1) (width - 1) rest
    | .bad width reason =>
      match policy with
      | .replace =>
        (CodePoint.replacement :: ·) <$>
          decodeFrom form policy (position + 1) (width - 1) rest
      | .keepSurrogates =>
        match loneSurrogate? form (b :: rest) with
        | some (c, taken) =>
          (c :: ·) <$> decodeFrom form policy (position + 1) (taken - 1) rest
        | none => .error ⟨form, position, width, b, reason⟩
      | .strict => .error ⟨form, position, width, b, reason⟩

def decode (form : Form) (policy : Policy) (bytes : List UInt8) : Except Fault Text :=
  decodeFrom form policy 0 0 bytes

-- Text from bytes of any content; each run that encodes nothing becomes one mark.
def decodeLossy (bytes : List UInt8) : Text :=
  match decode .utf8 .replace bytes with
  | .ok t => t
  | .error _ => []

def byte (n : Nat) : UInt8 :=
  UInt8.ofNat n

def utf8Bytes (c : CodePoint) : List UInt8 :=
  let n := c.val
  if n < 0x80 then [byte n]
  else if n < 0x800 then [byte (0xC0 + n / 0x40), byte (0x80 + n % 0x40)]
  else if n < 0x10000 then
    [byte (0xE0 + n / 0x1000), byte (0x80 + n / 0x40 % 0x40), byte (0x80 + n % 0x40)]
  else
    [byte (0xF0 + n / 0x40000), byte (0x80 + n / 0x1000 % 0x40),
      byte (0x80 + n / 0x40 % 0x40), byte (0x80 + n % 0x40)]

structure SurrogateRun where
  first : CodePoint
  start : Nat
  length : Nat
deriving DecidableEq

def SurrogateRun.message (r : SurrogateRun) : Text :=
  let whereText : Text :=
    if r.length = 1 then
      "character '\\u" ++ Text.ofHex 4 r.first.val ++ "' in position " ++ Text.ofNat r.start
    else
      "characters in position " ++ Text.ofNat r.start ++ "-" ++
        Text.ofNat (r.start + r.length - 1)
  "'utf-8' codec can't encode " ++ whereText ++ ": surrogates not allowed"

def surrogateRun? (t : Text) : Option SurrogateRun :=
  let plain := t.takeWhile (!·.isSurrogate)
  match t.drop plain.length with
  | [] => none
  | c :: rest =>
    some ⟨c, plain.length, (c :: rest).takeWhile (·.isSurrogate) |>.length⟩

def encode (t : Text) : Except SurrogateRun (List UInt8) :=
  match surrogateRun? t with
  | some run => .error run
  | none => .ok (t.flatMap utf8Bytes)

end Encoding

end SpanTags
