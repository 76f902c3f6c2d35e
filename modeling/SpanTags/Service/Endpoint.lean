import SpanTags.Service.App
import SpanTags.Service.Preview.Refusal
import SpanTags.Service.Route
import SpanTags.Tag.Body

namespace SpanTags

namespace App

variable (app : App) (server : Server)

def bodyTags (direction : Direction) (rules : RuleSet) (body : Text)
    (contentType : Option Text) : Tagging Empty :=
  Body.tag server.nestingLimit rules.mask app.limits direction.root (.text body)
    (.textOrNull (MediaType.ofHeader contentType))

def previewRules (preview : Preview) : Except Text RuleSet :=
  match preview.rules with
  | some source => (RuleSet.parse source).mapError RuleFault.message
  | none =>
    match app.rules preview.direction with
    | some rules => .ok rules
    | none => .error (preview.direction.name ++ " payload tagging is disabled")

def previewTags (preview : Preview) (rules : RuleSet) : Tagging Empty :=
  app.bodyTags server preview.direction rules preview.body preview.contentType

def tagsDocument (tags : Tags) : Value :=
  .object [("tags", .object (tags.map fun (path, value) => (path,
    match value with
    | .text t => .text t
    | .marker => .bool true)))]

def answerPreview (preview : Preview) : Handled :=
  match app.previewRules preview with
  | .error detail => .silently (Response.refusal 400 (.text detail))
  | .ok rules =>
    let tagging := app.previewTags server preview rules
    match tagging.tags with
    | .ok tags => ⟨Response.json 200 (tagsDocument tags), tagging.notes⟩
    | .error (.number fault) => ⟨.error (.handler "ValueError" fault.message), tagging.notes⟩

def preview : Route where
  path := "/preview"
  methods := ["POST"]
  handle request :=
    match Preview.ofRequest server.nestingLimit request with
    | .ok preview => app.answerPreview server preview
    | .error refusal => .silently refusal.response

def health : Route where
  path := "/health"
  methods := ["GET"]
  handle _ :=
    let fields : List (Text × Value) := [("status", "ok"), ("time", .int server.time.seconds)]
    .silently (Response.json 200 (.object fields))

def routes (added : List Route) : List Route :=
  health server :: app.preview server :: added

end App

end SpanTags
