import SpanTags.Text.Printable

namespace SpanTags

namespace Text

-- Apostrophes enclose the text, unless it holds an apostrophe and no quotation mark.
def enclosingQuote (t : Text) : CodePoint :=
  if ('\'' : CodePoint) ∈ t ∧ ('"' : CodePoint) ∉ t then '"' else '\''

def shortEscape? (quote c : CodePoint) : Option Text :=
  if c = quote ∨ c = '\\' then some ['\\', c]
  else if c = '\t' then some ['\\', 't']
  else if c = '\n' then some ['\\', 'n']
  else if c = '\r' then some ['\\', 'r']
  else none

-- A code point without a glyph is written by its number, in the narrowest of the
-- three escapes that holds it.
def numberEscape (c : CodePoint) : Text :=
  if c.val ≤ 0xFF then ('\\' : CodePoint) :: ('x' : CodePoint) :: ofHex 2 c.val
  else if c.val ≤ 0xFFFF then ('\\' : CodePoint) :: ('u' : CodePoint) :: ofHex 4 c.val
  else ('\\' : CodePoint) :: ('U' : CodePoint) :: ofHex 8 c.val

def quotedCodePoint (quote c : CodePoint) : Text :=
  match shortEscape? quote c with
  | some escape => escape
  | none => if c.isPrintable then [c] else numberEscape c

def quoted (t : Text) : Text :=
  let quote := t.enclosingQuote
  quote :: (t.flatMap (quotedCodePoint quote) ++ [quote])

def quotedByte (quote : CodePoint) (b : UInt8) : Text :=
  let c := CodePoint.ofByte b
  match shortEscape? quote c with
  | some escape => escape
  | none => if c.within 0x20 0x7E then [c] else numberEscape c

-- A byte string between quotes, marked by a leading b; only ASCII stands for itself.
def quotedBytes (bytes : List UInt8) : Text :=
  let quote := enclosingQuote (bytes.map CodePoint.ofByte)
  ('b' : CodePoint) :: quote :: (bytes.flatMap (quotedByte quote) ++ [quote])

end Text

end SpanTags
