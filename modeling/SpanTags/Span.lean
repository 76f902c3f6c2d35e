import SpanTags.Tag.Basic
import SpanTags.Text.Encoding

namespace SpanTags

-- A span with its attributes, the one that was set longest ago first. One that does not
-- record, or has ended, ignores what is set on it.
structure Span where
  isRecording : Bool
  limit : Option Nat
  attributes : List (Text × Scalar)

def TagValue.scalar : TagValue → Scalar
  | text t => .text t
  | marker => .bool true

namespace Span

def start (limit : Option Nat) : Span := ⟨true, limit, []⟩

def invalid : Span := ⟨false, none, []⟩

def finish (span : Span) : Span :=
  { span with isRecording := false }

def kept? : Scalar → Option Scalar
  | .null => none
  | .bytes b =>
    match Encoding.decode .utf8 .strict b with
    | .ok t => some (.text t)
    | .error _ => none
  | s => some s

-- At the limit a new name drives out the attribute that was set longest ago. A name that
-- is set again counts as the latest.
def put (limit : Option Nat) (name : Text) (value : Scalar) (attributes : List (Text × Scalar)) :
    List (Text × Scalar) :=
  let others := attributes.filter (·.1 ≠ name)
  let isNew := others.length = attributes.length
  let room := if isNew && limit = some attributes.length then others.drop 1 else others
  room ++ [(name, value)]

-- Attributes without a name or a value are passed over, and all are if none may be kept.
def set (span : Span) (name : Text) (value : Scalar) : Span :=
  if !span.isRecording || span.limit = some 0 || name.isEmpty then span
  else match kept? value with
  | some value => { span with attributes := put span.limit name value span.attributes }
  | none => span

def setAll (span : Span) (pairs : List (Text × Scalar)) : Span :=
  pairs.foldl (fun span (name, value) => span.set name value) span

def setTags (span : Span) (tags : Tags) : Span :=
  span.setAll (tags.map fun (path, value) => (path, value.scalar))

end Span

end SpanTags
