import SpanTags.Log.Basic
import SpanTags.Json.Fault

namespace SpanTags

inductive Note
  | tagsTrimmed (root : Text) (maxTags : Int)
  | decodeFailed (root : Text) (fault : Json.Fault)
  | taggingFailed (direction error : Text)
  | limitsAlreadySet (applied requested : Int)
  | settingsLoaded (path : Text) (request response : Option Text) (maxDepth maxTags : Int)
  | appCreated (request response : Bool)

namespace Note

def level : Note → Level
  | tagsTrimmed _ _ => .debug
  | decodeFailed _ _ => .debug
  | taggingFailed _ _ => .error
  | limitsAlreadySet _ _ => .warning
  | settingsLoaded _ _ _ _ _ => .info
  | appCreated _ _ => .info

def title : Note → Text
  | tagsTrimmed _ _ => "payload_tags_trimmed"
  | decodeFailed _ _ => "payload_decode_failed"
  | taggingFailed _ _ => "payload_tagging_failed"
  | limitsAlreadySet _ _ => "span_limits_already_set"
  | settingsLoaded _ _ _ _ _ => "settings_loaded"
  | appCreated _ _ => "app_created"

def details : Note → Record
  | tagsTrimmed root maxTags => [("prefix", .text root), ("max_tags", .int maxTags)]
  | decodeFailed root fault =>
    [("prefix", .text root), ("error", .text (fault.kind ++ ": " ++ fault.message))]
  | taggingFailed direction error =>
    [("direction", .text direction), ("error", .text error)]
  | limitsAlreadySet applied requested =>
    [("applied", .int applied), ("requested", .int requested)]
  | settingsLoaded path request response maxDepth maxTags => [
      ("path", .text path),
      ("request", .textOrNull request),
      ("response", .textOrNull response),
      ("max_depth", .int maxDepth),
      ("max_tags", .int maxTags)]
  | appCreated request response =>
    [("request_tagging", .bool request), ("response_tagging", .bool response)]

def record (note : Note) : Record :=
  ("level", .text note.level.name) :: ("msg", .text note.title) :: note.details

def lines (time : Time) (threshold : Level) (note : Note) : Except RecordFault (List Text) :=
  note.record.lines time threshold

-- The lines of notes, each of them written when the clock shows its next time, at the
-- threshold of that moment.
def linesOf (clock : Clock) (notes : List (Level × Note)) : Except RecordFault (List Text) := do
  let lines ← notes.zipIdx.mapM fun ((threshold, note), n) => note.lines (clock n) threshold
  return lines.flatten

end Note

end SpanTags
