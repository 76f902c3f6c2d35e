import SpanTags.Span
import SpanTags.Log.Note

namespace SpanTags

-- The tracing that a process has set up for good: the number of tags that a set may
-- have, what the spans are reported as and where to, and how many attributes one takes.
structure Tracing where
  maxTags : Int
  service : Text
  endpoint : Text
  spanLimit : Option Nat

namespace Tracing

structure LimitFault where
  limit : Int
deriving DecidableEq

-- A limit of too many digits is not even named.
def LimitFault.message (fault : LimitFault) : Text :=
  match writeWhole fault.limit with
  | .ok limit =>
    "OTEL_SPAN_ATTRIBUTE_COUNT_LIMIT must be a non-negative integer but got " ++ limit
  | .error fault => fault.message

def defaultService : Text := "payload-tagger"

def unnamedService : Text := "unknown_service"

def defaultEndpoint : Text := "http://localhost:4318"

-- The tags of a query, a request and a response share a span with a few more attributes.
def wantedLimit (maxTags : Int) : Int :=
  3 * maxTags + 32

-- The value just below zero stands for no limit.
def spanLimit? (limit : Int) : Except LimitFault (Option Nat) :=
  if limit = -1 then .ok none
  else if limit < 0 then .error ⟨limit⟩
  else .ok (some limit.toNat)

def create (environment : List (Text × Text)) (service : Text) (maxTags : Int) :
    Except LimitFault Tracing := do
  let base := (environment.lookup ("OTEL_EXPORTER_OTLP_ENDPOINT" : Text)).getD defaultEndpoint
  let spanLimit ← spanLimit? (wantedLimit maxTags)
  return {
    maxTags
    service := if service.isEmpty then unnamedService else service
    endpoint := base ++ "/v1/traces"
    spanLimit }

-- Only the first time counts. Asking for more tags later on is worth a note.
def init (environment : List (Text × Text)) (service : Text) (maxTags : Int) :
    Option Tracing → Except LimitFault (Tracing × List Note)
  | none => do return (← create environment service maxTags, [])
  | some tracing =>
    .ok (tracing,
      if tracing.maxTags < maxTags then [.limitsAlreadySet tracing.maxTags maxTags] else [])

-- Nothing is recorded before the tracing is set up.
def startSpan : Option Tracing → Span
  | none => .invalid
  | some tracing => .start tracing.spanLimit

end Tracing

-- Where the spans come from, and how one takes tags, which can fail.
structure Tracer where
  start : Span
  setTags : Span → Tags → Except Text Span

namespace Tracer

def recording (limit : Option Nat) : Tracer :=
  ⟨.start limit, fun span tags => .ok (span.setTags tags)⟩

def ofTracing (tracing : Tracing) : Tracer :=
  recording tracing.spanLimit

end Tracer

-- What a process keeps from one call to the next.
structure Session where
  threshold : Level
  tracing : Option Tracing
  span : Span

namespace Session

def start : Session := ⟨.info, none, .invalid⟩

instance : Inhabited Session := ⟨start⟩

def write (session : Session) (clock : Clock) (notes : List Note) :
    Except RecordFault (List Text) :=
  Note.linesOf clock (notes.map (session.threshold, ·))

end Session

end SpanTags
