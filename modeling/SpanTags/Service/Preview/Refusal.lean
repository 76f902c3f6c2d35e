import SpanTags.Json.Reader
import SpanTags.Service.Message
import SpanTags.Service.Preview.Basic

namespace SpanTags

namespace Preview

inductive Refusal
  | empty
  | noDocument (body : List UInt8)
  | syntaxAt (cause : Json.Cause) (offset : Nat)
  | unreadable
  | noObject (v : Value)
  | invalid (issues : List (Text × Field.Issue)) (entries : List (Key × Value))

-- Here the words for the numbers that are not finite are read as well.
def decode (nestingLimit : Nat) (body : List UInt8) : Except Refusal Value :=
  match Json.readBytes ⟨true, nestingLimit⟩ body with
  | .ok v => .ok v
  | .error (.syntaxAt cause place) => .error (.syntaxAt cause place.offset)
  | .error _ => .error .unreadable

def fields (entries : List (Key × Value)) : List (Text × Given) :=
  entries.filterMap fun (key, v) =>
    match key with
    | .scalar (.text name) => some (name, Given.ofValue v)
    | _ => none

def ofValue : Value → Except Refusal Preview
  | .dict entries => (validate (fields entries)).mapError fun issues => .invalid issues entries
  | v => .error (.noObject v)

def ofRequest (nestingLimit : Nat) (request : Request) : Except Refusal Preview :=
  let header := (contentType? request.headers).getD []
  if request.body.isEmpty then .error .empty
  else if MediaType.isDocument header then do
    ofValue (← decode nestingLimit request.body)
  else .error (.noDocument request.body)

namespace Refusal

mutual

-- A value as it is shown to the caller: entries whose names begin with _sa are left out.
def shown : Value → Value
  | .scalar s => .scalar s
  | .list items => .list (shownItems items)
  | .tuple items => .list (shownItems items)
  | .dict entries => .dict (shownEntries entries)

def shownItems : List Value → List Value
  | [] => []
  | v :: rest => shown v :: shownItems rest

def shownEntries : List (Key × Value) → List (Key × Value)
  | [] => []
  | (.scalar (.text name), v) :: rest =>
    if ("_sa" : Text).isPrefixOf name then shownEntries rest
    else (.ofText name, shown v) :: shownEntries rest
  | (key, v) :: rest => (key, shown v) :: shownEntries rest

end

def report (kind : Text) (place : List Value) (message : Text) (input : Value)
    (context : List (Text × Value)) : Value :=
  let reported : List (Text × Value) := [
    ("type", .text kind),
    ("loc", .list (.text "body" :: place)),
    ("msg", .text message),
    ("input", shown input)]
  let named : Text × Value := ("ctx", .object context)
  .object (if context.isEmpty then reported else reported ++ [named])

def reportNoObject (input : Value) : Value :=
  report "model_attributes_type" []
    "Input should be a valid dictionary or object to extract fields from" input []

-- An issue of a field that is missing shows the whole object.
def reportIssue (entries : List (Key × Value)) : Text × Field.Issue → Value
  | (name, issue) =>
    let input := (Ordered.get? (Key.ofText name) entries).getD (.dict entries)
    let context : List (Text × Value) :=
      match issue with
      | .notAmong names => [("expected", .text (Field.alternatives names))]
      | _ => []
    report issue.kind [.text name] issue.message input context

def response : Refusal → Except Crash Response
  | empty => Response.refusal 422 (.list [report "missing" [] "Field required" .null []])
  | noDocument body => do
    let t ← (Encoding.decode .utf8 .strict body).mapError Crash.undecodable
    Response.refusal 422 (.list [reportNoObject (.text t)])
  | syntaxAt cause offset =>
    Response.refusal 422 (.list [report "json_invalid" [.int offset] "JSON decode error" (.object [])
      [("error", .text cause.message)]])
  | unreadable => Response.refusal 400 (.text "There was an error parsing the body")
  | noObject v => Response.refusal 422 (.list [reportNoObject v])
  | invalid issues entries => Response.refusal 422 (.list (issues.map (reportIssue entries)))

end Refusal

end Preview

end SpanTags
