import SpanTags.Settings.Basic
import SpanTags.Settings.File
import SpanTags.Log.Note

namespace SpanTags

-- What a process finds: its environment, the files of its directory, and the place of the
-- settings that it brings along.
structure Surroundings where
  environment : List (Text × Text)
  files : List (Text × List UInt8)
  bundledPath : Text

namespace Settings

inductive PathFault
  | missing (path : Text)
  | directory (path : Text)
  | notDirectory (path : Text)
deriving DecidableEq

namespace PathFault

def kind : PathFault → Text
  | missing _ => "FileNotFoundError"
  | directory _ => "IsADirectoryError"
  | notDirectory _ => "NotADirectoryError"

def message : PathFault → Text
  | missing path => "[Errno 2] No such file or directory: " ++ path.quoted
  | directory path => "[Errno 21] Is a directory: " ++ path.quoted
  | notDirectory path => "[Errno 20] Not a directory: " ++ path.quoted

end PathFault

inductive LoadFault
  | path (fault : PathFault)
  | encoding (fault : Encoding.Fault)
  | document (fault : Yaml.Fault)
  | shape (fault : ShapeFault)
  | invalid (issues : List (Text × Field.Issue))

namespace LoadFault

def kind : LoadFault → Text
  | path fault => fault.kind
  | encoding _ => "UnicodeDecodeError"
  | document fault => fault.kind
  | shape fault => fault.kind
  | invalid _ => "ValidationError"

def message : LoadFault → Text
  | path fault => fault.message
  | encoding fault => fault.message
  | document fault => fault.message
  | shape fault => fault.message
  | invalid _ => ""

end LoadFault

-- The settings that count when no file is named.
def bundled : Text :=
  "payload_tagging:\n" ++
  "  # Comma-separated mask rules; \"*\" tags every key, leave empty to disable\n" ++
  "  request: null\n" ++
  "  response: null\n" ++
  "  max_depth: 10\n" ++
  "  max_tags: 758\n" ++
  "\n" ++
  "logging:\n" ++
  "  level: info\n"

-- The bytes of a file in the directory. A trailing slash asks for a directory.
def readFile (files : List (Text × List UInt8)) (path : Text) : Except PathFault (List UInt8) :=
  let steps := (path.splitOn ('/' : CodePoint)).filter fun step =>
    step ≠ [] && step ≠ ("." : Text)
  match steps with
  | [] => .error (.directory path)
  | name :: rest =>
    if name = (".." : Text) && rest.isEmpty then .error (.directory path)
    else match files.lookup name with
    | none => .error (.missing path)
    | some bytes =>
      if rest.isEmpty && path.getLast? ≠ some ('/' : CodePoint) then .ok bytes
      else .error (.notDirectory path)

def unifyLines : Text → Text
  | [] => []
  | c :: rest =>
    if c = '\r' then
      match rest with
      | d :: more => if d = '\n' then '\n' :: unifyLines more else '\n' :: unifyLines (d :: more)
      | [] => ['\n']
    else c :: unifyLines rest

-- Bytes that break off are found only once all before them are gone.
def decodeFile (bytes : List UInt8) : Except Encoding.Fault Text :=
  match Encoding.decode .utf8 .strict bytes with
  | .ok t => .ok (unifyLines t)
  | .error fault =>
    .error (if fault.reason = .unexpectedEnd then { fault with start := 0 } else fault)

def overrides : List (Text × Text) := [
  ("PAYLOAD_TAGGING_REQUEST", "request"),
  ("PAYLOAD_TAGGING_RESPONSE", "response"),
  ("PAYLOAD_TAGGING_MAX_DEPTH", "max_depth"),
  ("PAYLOAD_TAGGING_MAX_TAGS", "max_tags"),
  ("PAYLOAD_TAGGING_LOG_LEVEL", "log_level")]

-- An empty variable takes rules away; for the other fields it counts as unset.
def overriding? (environment : List (Text × Text)) (source field : Text) : Option Text :=
  match environment.lookup source with
  | none => none
  | some t =>
    if t.isEmpty && field ≠ ("request" : Text) && field ≠ ("response" : Text) then none
    else some t

def override (environment : List (Text × Text)) (given : List (Text × Given)) :
    List (Text × Given) :=
  overrides.foldl (fun given (source, field) =>
    match overriding? environment source field with
    | some t => Ordered.put field (.scalar (.text t)) given
    | none => given) given

def nonEmpty (t : Option Text) : Option Text :=
  t.filter (!·.isEmpty)

def choosePath (surroundings : Surroundings) (path : Option Text) : Option Text :=
  (nonEmpty path).or (nonEmpty (surroundings.environment.lookup ("PAYLOAD_TAGGING_CONFIG" : Text)))

def readDocument (surroundings : Surroundings) (path : Option Text) :
    Except LoadFault Text :=
  match path with
  | none => .ok bundled
  | some path => do
    let bytes ← (readFile surroundings.files path).mapError LoadFault.path
    (decodeFile bytes).mapError LoadFault.encoding

-- Variables count more than the file, and the file more than the defaults, each field
-- by itself.
def load (surroundings : Surroundings) (path : Option Text) :
    Except LoadFault (Settings × Note) := do
  let path := choosePath surroundings path
  let text ← readDocument surroundings path
  let content ← (Yaml.Content.ofText text).mapError LoadFault.document
  let given ← (File.fields content).mapError LoadFault.shape
  let settings ←
    (validate (override surroundings.environment given)).mapError LoadFault.invalid
  let note := Note.settingsLoaded (path.getD surroundings.bundledPath) settings.request
    settings.response settings.maxDepth settings.maxTags
  return (settings, note)

end Settings

end SpanTags
