import SpanTags.Json.Lexeme
import SpanTags.Ordered

namespace SpanTags

namespace Json

-- A container whose end has not been read: the items so far in reverse, or the entries
-- so far with the name of the one that is being read.
inductive Frame
  | array (items : List Value)
  | object (entries : List (Key × Value)) (name : Text)

inductive Awaits
  | value (frames : List Frame)
  | firstItem (frames : List Frame)
  | firstName (frames : List Frame)
  | laterName (entries : List (Key × Value)) (frames : List Frame)
  | colon (entries : List (Key × Value)) (name : Text) (frames : List Frame)
  | afterItem (items : List Value) (frames : List Frame)
  | afterEntry (entries : List (Key × Value)) (frames : List Frame)
  | nothing (v : Value)

namespace Awaits

def cause : Awaits → Cause
  | value _ => .expectedValue
  | firstItem _ => .expectedValue
  | firstName _ => .expectedName
  | laterName _ _ => .expectedName
  | colon _ _ _ => .expectedColon
  | afterItem _ _ => .expectedComma
  | afterEntry _ _ => .expectedComma
  | nothing _ => .extraData

-- A finished value goes to the innermost open container. A name that was read before
-- keeps its place and takes the new value.
def deliver (v : Value) : List Frame → Awaits
  | [] => .nothing v
  | .array items :: frames => .afterItem (v :: items) frames
  | .object entries name :: frames => .afterEntry (Ordered.put (Key.ofText name) v entries) frames

def openContainer (dialect : Dialect) (nest : Nest) (frames : List Frame) :
    Except Stop Awaits :=
  if frames.length < dialect.nestingLimit then
    match nest with
    | .array => .ok (.firstItem frames)
    | .object => .ok (.firstName frames)
  else .error (.tooDeep nest)

def begin? (dialect : Dialect) (frames : List Frame) : Lexeme → Option (Except Stop Awaits)
  | .text t => some (.ok (deliver (.text t) frames))
  | .scalar s => some (.ok (deliver (.scalar s) frames))
  | .mark c =>
    if c = '[' then some (openContainer dialect .array frames)
    else if c = '{' then some (openContainer dialect .object frames)
    else none

-- The state after a lexeme, or `none` if the lexeme may not stand here.
def next? (dialect : Dialect) (l : Lexeme) : Awaits → Option (Except Stop Awaits)
  | value frames => begin? dialect frames l
  | firstItem frames =>
    match l with
    | .mark c =>
      if c = ']' then some (.ok (deliver (.list []) frames))
      else begin? dialect (.array [] :: frames) l
    | _ => begin? dialect (.array [] :: frames) l
  | firstName frames =>
    match l with
    | .text t => some (.ok (.colon [] t frames))
    | .mark c => if c = '}' then some (.ok (deliver (.dict []) frames)) else none
    | .scalar _ => none
  | laterName entries frames =>
    match l with
    | .text t => some (.ok (.colon entries t frames))
    | _ => none
  | colon entries name frames =>
    match l with
    | .mark c => if c = ':' then some (.ok (.value (.object entries name :: frames))) else none
    | _ => none
  | afterItem items frames =>
    match l with
    | .mark c =>
      if c = ',' then some (.ok (.value (.array items :: frames)))
      else if c = ']' then some (.ok (deliver (.list items.reverse) frames))
      else none
    | _ => none
  | afterEntry entries frames =>
    match l with
    | .mark c =>
      if c = ',' then some (.ok (.laterName entries frames))
      else if c = '}' then some (.ok (deliver (.dict entries) frames))
      else none
    | _ => none
  | nothing _ => none

-- A faulty text or number counts only where it is wanted.
def wants (c : CodePoint) : Awaits → Bool
  | value _ => true
  | firstItem _ => true
  | firstName _ => c = '"'
  | laterName _ _ => c = '"'
  | _ => false

end Awaits

-- Reads on from `offset`. `skip` counts code points of a lexeme that is already read.
def readFrom (dialect : Dialect) : Awaits → Nat → Nat → Text → Except Stop Value
  | .nothing v, _, _, [] => .ok v
  | state, offset, _, [] => .error (.cause state.cause offset)
  | state, offset, skip + 1, _ :: rest => readFrom dialect state (offset + 1) skip rest
  | state, offset, 0, c :: rest =>
    if isSpace c then readFrom dialect state (offset + 1) 0 rest
    else match lexeme dialect offset c rest with
    | none => .error (.cause state.cause offset)
    | some (.error stop, _) =>
      if state.wants c then .error stop else .error (.cause state.cause offset)
    | some (.ok l, width) =>
      match state.next? dialect l with
      | none => .error (.cause state.cause offset)
      | some (.error stop) => .error stop
      | some (.ok state') => readFrom dialect state' (offset + 1) (width - 1) rest

def read (dialect : Dialect) (document : Text) : Except Fault Value :=
  match readFrom dialect (.value []) 0 0 document with
  | .ok v => .ok v
  | .error stop => .error (stop.fault document)

-- The encoding of a document is told by its byte order mark, or else by which of its
-- first bytes are zero. Returns the form and the length of the mark.
def detect (bytes : List UInt8) : Encoding.Form × Nat :=
  match bytes with
  | 0x00 :: 0x00 :: 0xFE :: 0xFF :: _ => (.utf32 true, 4)
  | 0xFF :: 0xFE :: 0x00 :: 0x00 :: _ => (.utf32 false, 4)
  | 0xFE :: 0xFF :: _ => (.utf16 true, 2)
  | 0xFF :: 0xFE :: _ => (.utf16 false, 2)
  | 0xEF :: 0xBB :: 0xBF :: _ => (.utf8, 3)
  | a :: b :: c :: d :: _ =>
    if a = 0 then (if b = 0 then .utf32 true else .utf16 true, 0)
    else if b = 0 then (if c = 0 && d = 0 then .utf32 false else .utf16 false, 0)
    else (.utf8, 0)
  | [a, b] =>
    if a = 0 then (.utf16 true, 0)
    else if b = 0 then (.utf16 false, 0)
    else (.utf8, 0)
  | _ => (.utf8, 0)

-- Positions in a fault count the bytes of the mark in the wide encodings only.
def decodeBytes (bytes : List UInt8) : Except Fault Text :=
  let (form, mark) := detect bytes
  let counted := if form = .utf8 then 0 else mark
  match Encoding.decode form .keepSurrogates (bytes.drop mark) with
  | .ok t => .ok t
  | .error fault => .error (.encoding { fault with start := fault.start + counted })

def readText (dialect : Dialect) (t : Text) : Except Fault Value :=
  if t.head? = some ('\uFEFF' : CodePoint) then
    .error (.syntaxAt .byteOrderMark (Place.at t 0))
  else read dialect t

def readBytes (dialect : Dialect) (bytes : List UInt8) : Except Fault Value := do
  read dialect (← decodeBytes bytes)

def readBody (dialect : Dialect) : Value → Except Fault Value
  | .scalar (.text t) => readText dialect t
  | .scalar (.bytes b) => readBytes dialect b
  | v => .error (.notText v.typeName)

end Json

end SpanTags
