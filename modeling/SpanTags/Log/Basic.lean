import SpanTags.Redaction
import SpanTags.Json.Printer
import SpanTags.Ordered

namespace SpanTags

inductive Level
  | debug
  | info
  | warning
  | error
deriving DecidableEq

namespace Level

def all : List Level := [debug, error, info, warning]

def name : Level → Text
  | debug => "debug"
  | info => "info"
  | warning => "warning"
  | error => "error"

def severity : Level → Nat
  | debug => 10
  | info => 20
  | warning => 30
  | error => 40

def ofName? (t : Text) : Option Level :=
  all.find? (·.name = t)

def ofAnyCase? (t : Text) : Option Level :=
  ofName? t.asciiLower

-- The threshold that a process starts with; what names no level counts as info.
def initial (setting : Option Text) : Level :=
  (setting.bind ofAnyCase?).getD info

def isWritten (threshold level : Level) : Bool :=
  threshold.severity ≤ level.severity

end Level

inductive LevelFault
  | unknown (given : Text)
  | noText (typeName : Text)
deriving DecidableEq

namespace LevelFault

def kind : LevelFault → Text
  | unknown _ => "ValueError"
  | noText _ => "AttributeError"

def message : LevelFault → Text
  | unknown given => "Unknown log level: " ++ given
  | noText typeName => "'" ++ typeName ++ "' object has no attribute 'lower'"

end LevelFault

def Level.ofValue : Value → Except LevelFault Level
  | .scalar (.text t) =>
    match Level.ofAnyCase? t with
    | some level => .ok level
    | none => .error (.unknown t)
  | .scalar (.bytes b) => .error (.unknown (Text.quotedBytes b))
  | v => .error (.noText v.typeName)

-- A moment as a clock of the machine tells it, in milliseconds.
structure Time where
  milliseconds : Int64
deriving DecidableEq

namespace Time

def stamp (time : Time) : Int :=
  time.milliseconds.toInt

def seconds (time : Time) : Int :=
  time.stamp.tdiv 1000

end Time

-- A clock that is looked at again and again.
abbrev Clock := Nat → Time

abbrev Record := List (Text × Value)

inductive RecordFault
  | unhashable (typeName : Text)
  | number (fault : TooManyDigits)
  | json (fault : Json.WriteFault)
deriving DecidableEq

namespace RecordFault

def kind : RecordFault → Text
  | unhashable _ => "TypeError"
  | number _ => "ValueError"
  | json fault => fault.kind

def message : RecordFault → Text
  | unhashable typeName => "unhashable type: '" ++ typeName ++ "'"
  | number fault => fault.message
  | json fault => fault.message

end RecordFault

namespace Value

mutual

-- The first list or dictionary on the way through a value that is looked up in a table.
def unhashable? : Value → Option Text
  | .scalar _ => none
  | .list _ => some "list"
  | .dict _ => some "dict"
  | .tuple items => unhashableIn? items

def unhashableIn? : List Value → Option Text
  | [] => none
  | v :: rest => (unhashable? v).or (unhashableIn? rest)

end

end Value

namespace Record

-- A record without a level, or with one of no known name, is as weighty as info.
def level (record : Record) : Except RecordFault Level :=
  match Ordered.get? ("level" : Text) record with
  | none => .ok .info
  | some (.scalar (.text t)) => .ok ((Level.ofName? t).getD .info)
  | some v =>
    match v.unhashable? with
    | some typeName => .error (.unhashable typeName)
    | none => .ok .info

-- The record as it is written: the time first, unless the record brings its own, and
-- no secrets.
def line (time : Time) (record : Record) : Except RecordFault Text :=
  let stamped := Ordered.putAll record [("ts", .int time.stamp)]
  match Redaction.sanitize (Value.object stamped) with
  | .error fault => .error (.number fault)
  | .ok safe =>
    match Json.write .line safe with
    | .error fault => .error (.json fault)
    | .ok written => .ok (written ++ "\n")

def lines (time : Time) (threshold : Level) (record : Record) : Except RecordFault (List Text) := do
  let level ← record.level
  if threshold.isWritten level then return [← record.line time] else return []

end Record

end SpanTags
