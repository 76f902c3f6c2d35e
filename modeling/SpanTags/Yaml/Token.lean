import SpanTags.Yaml.Style.Quoted
import SpanTags.Yaml.Style.Block
import SpanTags.Text.Encoding

namespace SpanTags

namespace Yaml

inductive Directive
  | version (major : Nat)
  | handle (name lead : Text)
  | other
deriving DecidableEq

-- The units of a document. Where the text goes wrong, the fault stands as the last one.
inductive Token
  | directive (d : Directive)
  | documentStart
  | documentEnd
  | blockSequenceStart
  | blockMappingStart
  | blockEnd
  | flowSequenceStart
  | flowSequenceEnd
  | flowMappingStart
  | flowMappingEnd
  | blockEntry
  | flowEntry
  | key
  | value
  | alias (name : Text)
  | anchor (name : Text)
  | tag (handle : Option Text) (suffix : Text)
  | scalar (text : Text) (plain : Bool)
  | broken (fault : Fault)
deriving DecidableEq

namespace Token

def readName (p : Position) : Except Fault (Text × Position) :=
  let (name, q) := p.span isNameChar
  let closed := match q.peek with
    | none => true
    | some c => isGap c || isBreak c || isOneOf "?:,]\x7d%@`" c
  if name.isEmpty || !closed then .error .malformed else .ok (name, q)

-- The bytes that percent signs write, up to the first code point that writes itself.
def uriBytes : Text → Except Fault (List UInt8)
  | percent :: high :: low :: rest =>
    if percent = '%' then
      match high.hexValue?, low.hexValue? with
      | some h, some l => (UInt8.ofNat (h * 16 + l) :: ·) <$> uriBytes rest
      | _, _ => .error .malformed
    else .ok []
  | percent :: _ => if percent = '%' then .error .malformed else .ok []
  | [] => .ok []

-- Resolves the percent signs of a tag; a run of them must be UTF-8. `skip` counts the
-- code points of a run that is already read.
def decodeUri : Nat → Text → Except Fault Text
  | _, [] => .ok []
  | skip + 1, _ :: rest => decodeUri skip rest
  | 0, c :: rest =>
    if c = '%' then do
      let bytes ← uriBytes (c :: rest)
      match Encoding.decode .utf8 .strict bytes with
      | .ok run => return run ++ (← decodeUri (bytes.length * 3 - 1) rest)
      | .error _ => .error .malformed
    else (c :: ·) <$> decodeUri 0 rest

def readUri (p : Position) : Except Fault (Text × Position) :=
  let (uri, q) := p.span isUriChar
  if uri.isEmpty then .error .malformed
  else (decodeUri 0 uri).map (·, q)

-- A handle is a name between exclamation marks, or one exclamation mark before a space.
def readHandle (p : Position) : Except Fault (Text × Position) :=
  if p.peek ≠ some ('!' : CodePoint) then .error .malformed
  else
    let p := p.advance 1
    if p.peek = some (' ' : CodePoint) then .ok ("!", p)
    else
      let (name, q) := p.span isNameChar
      if q.peek = some ('!' : CodePoint) then .ok ("!" ++ name ++ "!", q.advance 1)
      else .error .malformed

def hasHandle (word : Text) : Bool :=
  ('!' : CodePoint) ∈ word.takeWhile (fun c => !endsField (some c))

def readTag (p : Position) : Except Fault (Token × Position) := do
  let rest := p.rest.drop 1
  let (token, q) ←
    if rest.head? = some ('<' : CodePoint) then do
      let (uri, q) ← readUri (p.advance 2)
      if q.peek ≠ some ('>' : CodePoint) then throw .malformed
      pure (tag none uri, q.advance 1)
    else if endsWord rest.head? then
      pure (tag none "!", p.advance 1)
    else if hasHandle rest then do
      let (handle, q) ← readHandle p
      let (suffix, q) ← readUri q
      pure (tag (some handle) suffix, q)
    else do
      let (suffix, q) ← readUri (p.advance 1)
      pure (tag (some "!") suffix, q)
  if endsField q.peek then return (token, q) else throw .malformed

def skipSpaces (p : Position) : Position :=
  p.skip (fun c => c = ' ')

def readNumber (p : Position) : Except Fault (Nat × Position) :=
  let (digits, q) := p.span CodePoint.isDigit
  if digits.isEmpty then .error .malformed else .ok (Text.decimal digits, q)

def readVersion (p : Position) : Except Fault (Directive × Position) := do
  let (major, p) ← readNumber (skipSpaces p)
  if p.peek ≠ some ('.' : CodePoint) then throw .malformed
  let (_, p) ← readNumber (p.advance 1)
  if endsField p.peek then return (.version major, p) else throw .malformed

def readHandleDirective (p : Position) : Except Fault (Directive × Position) := do
  let (name, p) ← readHandle (skipSpaces p)
  if p.peek ≠ some (' ' : CodePoint) then throw .malformed
  let (lead, p) ← readUri (skipSpaces p)
  if endsField p.peek then return (.handle name lead, p) else throw .malformed

def readDirective (p : Position) : Except Fault (Token × Position) := do
  let (name, p) := (p.advance 1).span isNameChar
  if name.isEmpty || !endsField p.peek then throw .malformed
  let (d, p) ←
    if name = ("YAML" : Text) then readVersion p
    else if name = ("TAG" : Text) then readHandleDirective p
    else pure (Directive.other, p.skip (!isBreak ·))
  return (directive d, ← Block.restOfLine p)

end Token

end Yaml

end SpanTags
