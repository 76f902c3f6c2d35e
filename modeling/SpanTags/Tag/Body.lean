import SpanTags.Tag.Walk
import SpanTags.Json.Reader
import SpanTags.Log.Note

namespace SpanTags

-- What tagging a payload comes to: the consultations of the mask with the tags, and what
-- is to be logged.
structure Tagging (ε : Type) where
  walk : Walk ε
  notes : List Note

namespace Tagging

variable {ε : Type}

def nothing (limits : Limits) : Tagging ε := ⟨.start limits, []⟩

def tags (tagging : Tagging ε) : Except (WalkFault ε) Tags :=
  tagging.walk.result

-- The trimming is noted if the tags have the marker's name among them.
def notesOf (limits : Limits) (root : Text) : Except (WalkFault ε) Tags → List Note
  | .ok tags =>
    if Ordered.has Tag.trimmedName tags then [.tagsTrimmed root limits.maxTags] else []
  | .error _ => []

def ofValue (mask : Mask ε) (limits : Limits) (root : Text) (v : Value) : Tagging ε :=
  let walk := Walk.run mask root limits v
  ⟨walk, notesOf limits root walk.result⟩

end Tagging

namespace Body

def isJson : Value → Bool
  | .scalar (.text t) => t.drop (t.length - 4) = ("json" : Text)
  | _ => false

-- The words for the numbers that are not finite are refused. How many containers may nest
-- depends on the stack.
def decode (nestingLimit : Nat) (body : Value) : Except Json.Fault Value :=
  Json.readBody ⟨false, nestingLimit⟩ body

-- A body that is not JSON by its content type has no tags, nor has one that cannot be
-- decoded.
def tag {ε : Type} (nestingLimit : Nat) (mask : Mask ε) (limits : Limits) (root : Text)
    (body contentType : Value) : Tagging ε :=
  if isJson contentType then
    match decode nestingLimit body with
    | .ok v => .ofValue mask limits root v
    | .error fault => { Tagging.nothing limits with notes := [.decodeFailed root fault] }
  else .nothing limits

end Body

end SpanTags
