import SpanTags.Field
import SpanTags.Ordered
import SpanTags.Tag.Basic

namespace SpanTags

inductive Direction
  | request
  | response
deriving DecidableEq

namespace Direction

def name : Direction → Text
  | request => "request"
  | response => "response"

def root : Direction → Text
  | request => Tag.requestPath
  | response => Tag.responsePath

def choices : List (Text × Direction) :=
  [request, response].map fun direction => (direction.name, direction)

end Direction

-- A question for the tags that a body would have. Without rules of its own, those of the
-- direction count.
structure Preview where
  body : Text
  contentType : Option Text
  direction : Direction
  rules : Option Text

namespace Preview

def bodyField : Option Given → Except Field.Issue Text
  | none => .error .missing
  | some given => Field.text given

def textField (default : Option Text) : Option Given → Except Field.Issue (Option Text)
  | none => .ok default
  | some given => Field.textOrNull given

def directionField : Option Given → Except Field.Issue Direction
  | none => .ok .request
  | some given => Field.choice Direction.choices given

-- All issues are reported, in the order of the fields. Other names are passed over.
def validate (given : List (Text × Given)) : Except (List (Text × Field.Issue)) Preview :=
  let get (name : Text) := Ordered.get? name given
  let body := bodyField (get "body")
  let contentType := textField (some "application/json") (get "content_type")
  let direction := directionField (get "direction")
  let rules := textField none (get "filter")
  match body, contentType, direction, rules with
  | .ok body, .ok contentType, .ok direction, .ok rules =>
    .ok { body, contentType, direction, rules }
  | _, _, _, _ =>
    .error (Field.issues "body" body ++ Field.issues "content_type" contentType ++
      Field.issues "direction" direction ++ Field.issues "filter" rules)

end Preview

end SpanTags
