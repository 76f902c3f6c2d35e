import SpanTags.Service.Endpoint
import SpanTags.Service.Params

namespace SpanTags

structure Exchange where
  outcome : Except Crash Response
  spans : List (Text × Span)
  notes : List Note

structure Visit where
  span : Span
  notes : List Note

namespace Visit

def note (notes : List Note) (visit : Visit) : Visit :=
  { visit with notes := visit.notes ++ notes }

def set (name : Text) (value : Scalar) (visit : Visit) : Visit :=
  { visit with span := visit.span.set name value }

-- Sets tags on the span if there are any and it records. A failure is noted, and the
-- visit goes on without the tags.
def tag (tracer : Tracer) (source : Text) (tagging : Tagging Empty) (visit : Visit) : Visit :=
  let visit := visit.note tagging.notes
  match tagging.tags with
  | .error (.number fault) => visit.note [.taggingFailed source fault.message]
  | .ok tags =>
    if tags.isEmpty || !visit.span.isRecording then visit
    else match tracer.setTags visit.span tags with
      | .ok span => { visit with span }
      | .error message => visit.note [.taggingFailed source message]

-- Ends the visit with its outcome. Only a span that records is handed on.
def close (name : Text) (outcome : Except Crash Response) (visit : Visit) : Exchange :=
  let spans := if visit.span.isRecording then [(name, visit.span.finish)] else []
  ⟨outcome, spans, visit.notes⟩

end Visit

namespace App

variable (app : App) (server : Server)

-- The tags of a body as it was sent. Bytes that encode nothing do not keep it from
-- being looked at.
def messageTags (direction : Direction) (rules : RuleSet) (body : List UInt8)
    (headers : List (Text × Text)) : Tagging Empty :=
  app.bodyTags server direction rules (Encoding.decodeLossy body) (contentType? headers)

def queryTags (rules : RuleSet) (params : Params) : Tagging Empty :=
  Tagging.ofValue rules.mask app.limits Tag.queryPath params.object

def tagQuery (rules : RuleSet) (request : Request) (visit : Visit) : Visit :=
  let params := Params.ofBytes request.query
  if params.isEmpty then visit
  else visit.tag app.tracer "query" (app.queryTags rules params)

def tagRequest (request : Request) (visit : Visit) : Visit :=
  match app.request with
  | none => visit
  | some rules =>
    (app.tagQuery rules request visit).tag app.tracer Direction.request.name
      (app.messageTags server .request rules request.body request.headers)

-- What goes out is the response itself; with rules its body goes out in one piece.
def tagResponse (response : Response) (visit : Visit) : Response × Visit :=
  let visit := visit.set "http.status_code" (.int response.status)
  match app.response with
  | none => (response, visit)
  | some rules =>
    ({ response with chunks := [response.body] },
      visit.tag app.tracer Direction.response.name
        (app.messageTags server .response rules response.body response.headers))

def arrive (request : Request) (target : Text) : Visit :=
  ((Visit.mk app.tracer.start []).set "http.method" (.text request.method)).set
    "http.target" (.text target)

-- What is left of a visit once the request has been looked at.
def respond (routes : List Route) (request : Request) (target : Text) (visit : Visit) : Exchange :=
  let name := request.method ++ " " ++ target
  let handled := Route.answer server routes request
  let visit := visit.note handled.notes
  match handled.outcome with
  | .error crash => visit.close name (.error crash)
  | .ok response =>
    let (response, visit) := app.tagResponse server response visit
    visit.close name (.ok response)

-- Serves a request by the routes under a span of its own. Without a path that can be read
-- there is no span, and no route is asked.
def serve (routes : List Route) (request : Request) : Exchange :=
  match server.target request with
  | .error crash => ⟨.error crash, [], []⟩
  | .ok target =>
    app.respond server routes request target
      (app.tagRequest server request (app.arrive request target))

end App

end SpanTags
