import SpanTags.Text.Encoding
import SpanTags.Payload.Basic

namespace SpanTags

abbrev Params := List (Text × Text)

namespace Params

-- The bytes of an ASCII text. A percent sign in front of two hexadecimal digits writes a
-- byte; everything else stands for itself.
def unescape : Text → List UInt8
  | a :: b :: c :: rest =>
    if a = '%' then
      match b.hexValue?, c.hexValue? with
      | some high, some low => UInt8.ofNat (high * 0x10 + low) :: unescape rest
      | _, _ => UInt8.ofNat a.val :: unescape (b :: c :: rest)
    else UInt8.ofNat a.val :: unescape (b :: c :: rest)
  | t => t.map fun c => UInt8.ofNat c.val

-- Escapes are read within each stretch of ASCII; what lies between stays as it is.
def decode (t : Text) : Text :=
  let stretches := t.splitBy fun (a b : CodePoint) => a.isAscii == b.isAscii
  stretches.flatMap fun stretch =>
    if stretch.all CodePoint.isAscii then Encoding.decodeLossy (unescape stretch) else stretch

def withSpaces (t : Text) : Text :=
  t.map fun (c : CodePoint) => if c = '+' then ' ' else c

-- The first equals sign ends the name. Without one the value is empty.
def param (piece : Text) : Text × Text :=
  let name : Text := piece.takeWhile (fun c => c ≠ '=')
  (decode (withSpaces name), decode (withSpaces (piece.drop (name.length + 1))))

-- The parameters stand between ampersands, and one byte is one code point.
def ofBytes (query : List UInt8) : Params :=
  let pieces := (query.map CodePoint.ofByte).splitOn ('&' : CodePoint)
  (pieces.filter (!·.isEmpty)).map param

def names (params : Params) : List Text :=
  (params.map Prod.fst).eraseDups

def valuesOf (name : Text) (params : Params) : List Text :=
  (params.filter (·.1 = name)).map Prod.snd

def grouped : List Text → Value
  | [value] => .text value
  | values => .list (values.map Value.text)

def object (params : Params) : Value :=
  .object (params.names.map fun name => (name, grouped (params.valuesOf name)))

end Params

end SpanTags
