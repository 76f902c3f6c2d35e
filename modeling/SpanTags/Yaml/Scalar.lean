import SpanTags.Yaml.Fault
import SpanTags.Yaml.Tag
import SpanTags.Payload.Basic

namespace SpanTags

namespace Yaml

-- What a scalar stands for. Points in time are kept as they are written.
inductive Datum
  | scalar (s : Scalar)
  | day (text : Text)
  | moment (text : Text)
deriving DecidableEq

namespace Datum

def splitSign (t : Text) : Bool × Text :=
  match t with
  | c :: rest =>
    if c = '-' then (true, rest)
    else if c = '+' then (false, rest)
    else (false, t)
  | [] => (false, [])

def withSign (negative : Bool) (n : Int) : Int :=
  if negative then -n else n

def digitValues? (base : Nat) (t : Text) : Option (List Nat) :=
  if t.isEmpty then none
  else t.mapM fun c => c.hexValue?.bind fun d => if d < base then some d else none

-- A number in the base, with blanks around it and a sign. Only the decimal digits are
-- limited in number.
def readInteger (base : Nat) (t : Text) : Except Fault Int :=
  let (negative, digits) := splitSign t.strip
  match digitValues? base digits with
  | none => .error (.integer base t)
  | some values =>
    if base = 10 then (readWhole negative digits).mapError Fault.digits
    else .ok (withSign negative (Text.numeral base values))

-- Digits by a first zero are octal unless a letter says otherwise, and colons separate
-- the parts of a number in base sixty.
def readUnsigned (t : Text) : Except Fault Int :=
  match t with
  | [] => .error .emptyNumber
  | c :: rest =>
    if t = ("0" : Text) then .ok 0
    else if ("0b" : Text).isPrefixOf t then readInteger 2 (rest.drop 1)
    else if ("0x" : Text).isPrefixOf t then readInteger 16 (rest.drop 1)
    else if c = '0' then readInteger 8 t
    else if (':' : CodePoint) ∈ t then do
      let parts ← (t.splitOn (':' : CodePoint)).mapM (readInteger 10)
      return parts.foldl (fun n part => n * 60 + part) 0
    else readInteger 10 t

def withoutUnderscores (t : Text) : Text :=
  t.filter (· ≠ '_')

def int (t : Text) : Except Fault Int :=
  let digits := withoutUnderscores t
  if digits.isEmpty then .error .emptyNumber
  else
    let (negative, digits) := splitSign digits
    (readUnsigned digits).map (withSign negative)

-- A decimal number as a whole number and the power of ten of its last digit.
structure Decimal where
  negative : Bool
  digits : Nat
  place : Int

def exponent? (t : Text) : Option Int :=
  match t with
  | [] => some 0
  | e :: rest =>
    if e = 'e' then
      let (negative, digits) := splitSign rest
      (digitValues? 10 digits).map fun values => withSign negative (Text.numeral 10 values)
    else none

def decimal? (t : Text) : Option Decimal := do
  let (negative, rest) := splitSign t
  let whole := rest.takeWhile CodePoint.isDigit
  let rest := rest.drop whole.length
  let (fraction, rest) : Text × Text := match rest with
    | c :: more =>
      if c = '.' then (more.takeWhile CodePoint.isDigit, more.dropWhile CodePoint.isDigit)
      else ([], rest)
    | [] => ([], [])
  if whole.isEmpty && fraction.isEmpty then none
  else
    let exponent ← exponent? rest
    return ⟨negative, Text.decimal (whole ++ fraction), exponent - fraction.length⟩

def readFloat (t : Text) : Except Fault Double :=
  let (negative, word) := splitSign t.strip
  if word = ("inf" : Text) || word = ("infinity" : Text) then .ok (.infinite negative)
  else if word = ("nan" : Text) then .ok .nan
  else match decimal? t.strip with
  | some d => .ok (.ofDecimal d.negative d.digits d.place)
  | none => .error (.decimal t)

def negate : Double → Double
  | .nan => .nan
  | .infinite negative => .infinite (!negative)
  | .finite negative magnitude => .finite (!negative) magnitude

-- The number that parts in base sixty write together, rounded once. Its digits stand
-- behind `places` places.
def sexagesimal (parts : List Decimal) : Double :=
  let places : Nat := parts.foldl (fun most d => max most (-d.place).toNat) 0
  let scaled (d : Decimal) : Int := withSign d.negative (d.digits * 10 ^ (d.place + places).toNat)
  let total := parts.foldl (fun (n : Int) d => n * 60 + scaled d) 0
  .ofDecimal (total < 0) total.natAbs (-(places : Int))

def float (t : Text) : Except Fault Double :=
  let lower := (withoutUnderscores t).asciiLower
  if lower.isEmpty then .error .emptyNumber
  else
    let (negative, word) := splitSign lower
    let signed (x : Double) : Double := if negative then negate x else x
    if word = (".inf" : Text) then .ok (.infinite negative)
    else if word = (".nan" : Text) then .ok .nan
    else if (':' : CodePoint) ∈ word then
      let parts := word.splitOn (':' : CodePoint)
      match parts.mapM fun part => decimal? (Text.strip part) with
      | some parts => .ok (signed (sexagesimal parts))
      | none => .error (.decimal word)
    else (readFloat word).map signed

def trueWords : List Text := ["yes", "true", "on"]

def falseWords : List Text := ["no", "false", "off"]

def bool (t : Text) : Except Fault Bool :=
  let word := t.asciiLower
  if trueWords.contains word then .ok true
  else if falseWords.contains word then .ok false
  else .error (.truthWord word)

def isLeapYear (year : Nat) : Bool :=
  year % 4 = 0 && (year % 100 ≠ 0 || year % 400 = 0)

def daysIn (year month : Nat) : Nat :=
  if month = 2 then (if isLeapYear year then 29 else 28)
  else if month = 4 ∨ month = 6 ∨ month = 9 ∨ month = 11 then 30
  else 31

-- Why the parts of a timestamp name no day or time; the distance from universal time
-- is looked at first.
def calendarFault? (parts : Tag.DateParts) : Option CalendarFault :=
  let offset := parts.time.bind (·.offset)
  if offset.any fun minutes => 1440 ≤ minutes.natAbs then offset.map .offset
  else if parts.year = 0 then some (.year 0)
  else if parts.month = 0 ∨ 12 < parts.month then some .month
  else if parts.day = 0 ∨ daysIn parts.year parts.month < parts.day then some .day
  else parts.time.bind fun time =>
    if 23 < time.hour then some .hour
    else if 59 < time.minute then some .minute
    else if 59 < time.second then some .second
    else none

def timestamp (t : Text) : Except Fault Datum :=
  match Tag.timestamp? t with
  | none => .error .noTimestamp
  | some parts =>
    match calendarFault? parts with
    | some fault => .error (.calendar fault)
    | none => .ok (if parts.time.isSome then .moment t else .day t)

def base64Value? (c : CodePoint) : Option Nat :=
  if c.within 0x41 0x5A then some (c.val - 0x41)
  else if c.within 0x61 0x7A then some (c.val - 0x61 + 26)
  else if c.isDigit then some (c.digitValue + 52)
  else if c = '+' then some 62
  else if c = '/' then some 63
  else none

-- Decodes groups of four digits of six bits. `held` are the bits that make no byte yet,
-- `place` counts the digits of the group, `pads` the signs that fill it up. What is no
-- digit is passed over.
def base64From (held place pads : Nat) : Text → Option (List UInt8)
  | [] => if place = 0 then some [] else none
  | c :: rest =>
    if c = '=' then
      if 2 ≤ place then
        if 4 ≤ place + pads + 1 then some [] else base64From held place (pads + 1) rest
      else base64From held place pads rest
    else match base64Value? c with
    | none => base64From held place pads rest
    | some digit =>
      if place = 0 then base64From digit 1 0 rest
      else if place = 1 then
        (UInt8.ofNat (held * 4 + digit / 16) :: ·) <$> base64From (digit % 16) 2 0 rest
      else if place = 2 then
        (UInt8.ofNat (held * 16 + digit / 4) :: ·) <$> base64From (digit % 4) 3 0 rest
      else (UInt8.ofNat (held * 64 + digit) :: ·) <$> base64From 0 0 0 rest

def binary (t : Text) : Except Fault (List UInt8) :=
  if t.all CodePoint.isAscii then
    match base64From 0 0 0 t with
    | some bytes => .ok bytes
    | none => .error .malformed
  else .error .malformed

-- What the text of a node stands for by its tag. Only the tags of scalars give a text
-- a meaning.
def ofText (tag : Tag) (t : Text) : Except Fault Datum :=
  match tag with
  | .null => .ok (.scalar .null)
  | .bool => (bool t).map fun b => .scalar (.bool b)
  | .int => (int t).map fun n => .scalar (.int n)
  | .float => (float t).map fun x => .scalar (.float x)
  | .text => .ok (.scalar (.text t))
  | .binary => (binary t).map fun bytes => .scalar (.bytes bytes)
  | .timestamp => timestamp t
  | _ => .error .malformed

end Datum

end Yaml

end SpanTags
