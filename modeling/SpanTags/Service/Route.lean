import SpanTags.Service.Message
import SpanTags.Log.Note

namespace SpanTags

structure Handled where
  outcome : Except Crash Response
  notes : List Note

namespace Handled

def silently (outcome : Except Crash Response) : Handled := ⟨outcome, []⟩

end Handled

structure Route where
  path : Text
  methods : List Text
  handle : Request → Handled

namespace Route

def accepts (request : Request) (route : Route) : Bool :=
  route.path = request.path && route.methods.contains request.method

def notFound : Except Crash Response :=
  Response.refusal 404 (.text "Not Found")

def methodNotAllowed (route : Route) : Except Crash Response := do
  let response ← Response.refusal 405 (.text "Method Not Allowed")
  return { response with
    headers := ("allow", Text.join ", " route.methods) :: response.headers }

-- The same path without slashes at its end, or with one if it has none.
def otherPath (path : Text) : Text :=
  if path.getLast? = some ('/' : CodePoint) then path.trimRight (fun c => c = '/')
  else path ++ "/"

def isPlain (b : UInt8) : Bool :=
  let c := CodePoint.ofByte b
  c.isDigit || c.isAsciiLetter || c ∈ ("_.-~:/%#?=@[]!$&'()*+,;" : Text)

def escaped (b : UInt8) : Text :=
  if isPlain b then [CodePoint.ofByte b]
  else
    let digits := (Nat.toDigits 16 (b.toNat + 0x100)).drop 1
    '%' :: digits.map fun c => CodePoint.ofChar c.toUpper

def redirect (url : Text) : Response :=
  .whole 307 [("location", (url.flatMap Encoding.utf8Bytes).flatMap escaped)] []

-- The answer of the first route that accepts the request. A route for the same path
-- only tells its methods, and one for the other path its place.
def answer (server : Server) (routes : List Route) (request : Request) : Handled :=
  match routes.find? (·.accepts request) with
  | some route => route.handle request
  | none =>
    match routes.find? (·.path = request.path) with
    | some route => .silently route.methodNotAllowed
    | none =>
      let path := otherPath request.path
      if routes.any (·.path = path) then
        .silently ((server.url { request with path }).map redirect)
      else .silently notFound

end Route

end SpanTags
