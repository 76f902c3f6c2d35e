import SpanTags.Log.Basic
import SpanTags.Service.Url
import SpanTags.Text.Encoding

namespace SpanTags

structure Request where
  method : Text
  path : Text
  query : List UInt8
  headers : List (Text × Text)
  chunks : List (List UInt8)

structure Response where
  status : Nat
  headers : List (Text × Text)
  chunks : List (List UInt8)

inductive Crash
  | handler (kind message : Text)
  | unwritable (fault : Json.WriteFault)
  | surrogates (run : Encoding.SurrogateRun)
  | undecodable (fault : Encoding.Fault)
  | malformed (fault : Url.Fault)
deriving DecidableEq

namespace Crash

def kind : Crash → Text
  | handler kind _ => kind
  | unwritable fault => fault.kind
  | surrogates _ => "UnicodeEncodeError"
  | undecodable _ => "UnicodeDecodeError"
  | malformed _ => "ValueError"

def message : Crash → Text
  | handler _ message => message
  | unwritable fault => fault.message
  | surrogates run => run.message
  | undecodable fault => fault.message
  | malformed fault => fault.message

end Crash

-- The first header of the name, which is written in lower case.
def contentType? (headers : List (Text × Text)) : Option Text :=
  headers.lookup ("content-type" : Text)

namespace Request

def body (request : Request) : List UInt8 :=
  request.chunks.flatten

-- The host that the request names comes before the origin of the server.
def url (origin : Text) (request : Request) : Except Encoding.Fault Text := do
  let query ← Encoding.decode .utf8 .strict request.query
  let origin : Text := match request.headers.lookup ("host" : Text) with
    | some host => "http://" ++ host
    | none => origin
  let asked := if query.isEmpty then [] else ('?' : CodePoint) :: query
  return origin ++ request.path ++ asked

end Request

-- What a request meets besides the application: the time, how many containers may nest
-- before the stack of the machine is used up, and the reading of URLs, which can fail.
structure Server where
  time : Time
  nestingLimit : Nat
  url : Request → Except Crash Text
  path : Text → Except Crash Text

namespace Server

-- The server at an origin, with the standard reading of URLs.
def standard (origin : Text) (time : Time) (nestingLimit : Nat) : Server where
  time := time
  nestingLimit := nestingLimit
  url request := (request.url origin).mapError Crash.undecodable
  path url := (Url.path url).mapError Crash.malformed

-- The path of the URL that a request asks for.
def target (server : Server) (request : Request) : Except Crash Text := do
  server.path (← server.url request)

end Server

namespace Response

def body (response : Response) : List UInt8 :=
  response.chunks.flatten

-- Some statuses say by themselves that there is no body.
def hasLength (status : Nat) : Bool :=
  200 ≤ status && status ≠ 204 && status ≠ 304

def lengthHeader (status : Nat) (body : List UInt8) : List (Text × Text) :=
  if hasLength status then [("content-length", Text.ofNat body.length)] else []

-- A response whose body is at hand gives its length first.
def whole (status : Nat) (headers : List (Text × Text)) (body : List UInt8) : Response :=
  ⟨status, lengthHeader status body ++ headers, [body]⟩

def streamed (status : Nat) (headers : List (Text × Text)) (chunks : List (List UInt8)) :
    Response :=
  ⟨status, headers, chunks⟩

-- The document of a value. Not every value has one, and not every text has bytes.
def document (v : Value) : Except Crash (List UInt8) := do
  let t ← (Json.write .compact v).mapError Crash.unwritable
  (Encoding.encode t).mapError Crash.surrogates

def json (status : Nat) (v : Value) : Except Crash Response := do
  return whole status [("content-type", "application/json")] (← document v)

def refusal (status : Nat) (detail : Value) : Except Crash Response :=
  json status (.object [("detail", detail)])

end Response

namespace MediaType

def bare (header : Text) : Text :=
  Text.strip (header.takeWhile (fun c => c ≠ ';'))

def ofHeader (header : Option Text) : Option Text :=
  (header.filter (!·.isEmpty)).map bare

-- Whether a body is to be read as a JSON document: an application's own format may end
-- in +json. The case of the letters does not matter.
def isDocument (header : Text) : Bool :=
  match (bare header).asciiLower.splitOn ('/' : CodePoint) with
  | [main, sub] =>
    main = ("application" : Text) &&
      (sub = ("json" : Text) || ("+json" : Text).isSuffixOf sub)
  | _ => false

end MediaType

end SpanTags
