import SpanTags.Payload.Basic
import SpanTags.Rule.Basic
import SpanTags.Text.Encoding
import SpanTags.Number.Layout

namespace SpanTags

-- What a caller gives for a field. Containers are of no use to any of the fields.
inductive Given
  | scalar (s : Scalar)
  | container

def Given.ofValue : Value → Given
  | .scalar s => .scalar s
  | _ => .container

namespace Field

inductive Issue
  | missing
  | noText
  | noUnicode
  | noInteger
  | unparsedInteger
  | fraction
  | notFinite
  | tooLong
  | below (least : Int)
  | above (most : Int)
  | notAmong (names : List Text)
  | rules (fault : RuleFault)
deriving DecidableEq

def alternatives : List Text → Text
  | [] => ""
  | [name] => "'" ++ name ++ "'"
  | [first, last] => "'" ++ first ++ "' or '" ++ last ++ "'"
  | first :: rest => "'" ++ first ++ "', " ++ alternatives rest

namespace Issue

def kind : Issue → Text
  | missing => "missing"
  | noText => "string_type"
  | noUnicode => "string_unicode"
  | noInteger => "int_type"
  | unparsedInteger => "int_parsing"
  | fraction => "int_from_float"
  | notFinite => "finite_number"
  | tooLong => "int_parsing_size"
  | below _ => "greater_than_equal"
  | above _ => "less_than_equal"
  | notAmong _ => "literal_error"
  | rules _ => "value_error"

def message : Issue → Text
  | missing => "Field required"
  | noText => "Input should be a valid string"
  | noUnicode => "Input should be a valid string, unable to parse raw data as a unicode string"
  | noInteger => "Input should be a valid integer"
  | unparsedInteger =>
    "Input should be a valid integer, unable to parse string as an integer"
  | fraction => "Input should be a valid integer, got a number with a fractional part"
  | notFinite => "Input should be a finite number"
  | tooLong => "Unable to parse input string as an integer, exceeded maximum size"
  | below least => "Input should be greater than or equal to " ++ Text.ofInt least
  | above most => "Input should be less than or equal to " ++ Text.ofInt most
  | notAmong names => "Input should be " ++ alternatives names
  | rules fault => "Value error, " ++ fault.message

end Issue

def text : Given → Except Issue Text
  | .scalar (.text t) => .ok t
  | .scalar (.bytes b) => (Encoding.decode .utf8 .strict b).mapError fun _ => .noUnicode
  | _ => .error .noText

def textOrNull : Given → Except Issue (Option Text)
  | .scalar .null => .ok none
  | given => some <$> text given

-- Drops the zeros in front of a number. One zero stays if no other digit follows.
def withoutZeros? (t : Text) : Option Text :=
  let rec afterZero (last : CodePoint) : Text → Option Text
    | [] => some [last]
    | c :: rest =>
      if c = '0' ∨ c = '_' then afterZero c rest
      else if c.isDigit then some (c :: rest)
      else if c = '.' then some (last :: c :: rest)
      else none
  match t with
  | [] => none
  | c :: rest =>
    if c = '0' then afterZero c rest
    else if c.isDigit ∨ c = '-' then some t
    else none

def withoutFraction (t : Text) : Text :=
  let whole : Text := t.takeWhile (fun c => c ≠ '.')
  let fraction := t.drop (whole.length + 1)
  if !fraction.isEmpty && fraction.all (fun c => c = '0') then whole else t

-- Drops single underscores between digits. Underscores elsewhere stay, where they are
-- no part of a number.
def withoutUnderscores (t : Text) : Text :=
  let parts := t.splitOn ('_' : CodePoint)
  if parts.any List.isEmpty then t else parts.flatten

def plainInteger (t : Text) : Except Issue Int :=
  let negative := t.head? = some ('-' : CodePoint)
  let digits := if negative then t.drop 1 else t
  if digits.isEmpty || !digits.all CodePoint.isDigit then .error .unparsedInteger
  else if digits.head? = some ('0' : CodePoint) && digits.length > 1 then
    .error .unparsedInteger
  else (readWhole negative digits).mapError fun _ => .tooLong

-- Reads an integer with blanks around it, a sign, zeros in front, underscores between
-- the digits and a fraction of zeros.
def integerText (t : Text) : Except Issue Int :=
  let t := t.trim CodePoint.isWhiteSpace
  let unsigned : Option Text := match t with
    | c :: rest =>
      if c = '+' then (if rest.head? = some ('-' : CodePoint) then none else some rest)
      else some t
    | [] => some t
  match unsigned.bind withoutZeros? with
  | some digits => plainInteger (withoutUnderscores (withoutFraction digits))
  | none => .error .unparsedInteger

-- Floats are exact integers only within 64 bits.
def integerFloat (x : Double) : Except Issue Int :=
  if !x.isFinite then .error .notFinite
  else match x.toInt? with
  | some n => if n.natAbs < 2 ^ 63 then .ok n else .error .tooLong
  | none => .error .fraction

def integer : Given → Except Issue Int
  | .scalar (.int n) => .ok n
  | .scalar (.bool b) => .ok (if b then 1 else 0)
  | .scalar (.float x) => integerFloat x
  | .scalar (.text t) =>
    if t.any CodePoint.isSurrogate then .error .noUnicode else integerText t
  | .scalar (.bytes b) =>
    match Encoding.decode .utf8 .strict b with
    | .ok t => integerText t
    | .error _ => .error .unparsedInteger
  | _ => .error .noInteger

def integerWithin (least most : Int) (given : Given) : Except Issue Int := do
  let n ← integer given
  if n < least then throw (.below least)
  if most < n then throw (.above most)
  return n

def choice {α : Type} (choices : List (Text × α)) : Given → Except Issue α
  | .scalar (.text t) =>
    if t.any CodePoint.isSurrogate then .error .noUnicode
    else match choices.lookup t with
    | some a => .ok a
    | none => .error (.notAmong (choices.map Prod.fst))
  | _ => .error (.notAmong (choices.map Prod.fst))

def issues {α : Type} (name : Text) : Except Issue α → List (Text × Issue)
  | .ok _ => []
  | .error issue => [(name, issue)]

end Field

end SpanTags
