import SpanTags.Yaml.Character

namespace SpanTags

namespace Yaml

inductive Tag
  | null
  | bool
  | int
  | float
  | text
  | binary
  | timestamp
  | sequence
  | mapping
  | set
  | orderedMap
  | pairs
  | merge
  | value
  | unknown (name : Text)
deriving DecidableEq

namespace Tag

def standard : Text := "tag:yaml.org,2002:"

def names : List (Text × Tag) := [
  ("null", .null), ("bool", .bool), ("int", .int), ("float", .float), ("str", .text),
  ("binary", .binary), ("timestamp", .timestamp), ("seq", .sequence), ("map", .mapping),
  ("set", .set), ("omap", .orderedMap), ("pairs", .pairs), ("merge", .merge),
  ("value", .value)]

def ofName (name : Text) : Tag :=
  if standard.isPrefixOf name then
    (names.lookup (name.drop standard.length)).getD (.unknown name)
  else .unknown name

-- The forms of plain scalars that are no texts.

def nullWords : List Text := ["", "~", "null", "Null", "NULL"]

def boolWords : List Text := [
  "yes", "Yes", "YES", "no", "No", "NO", "true", "True", "TRUE", "false", "False", "FALSE",
  "on", "On", "ON", "off", "Off", "OFF"]

def unsigned (t : Text) : Text :=
  match t with
  | c :: rest => if c = '-' ∨ c = '+' then rest else t
  | [] => []

def isDigitOf (base : Nat) (c : CodePoint) : Bool :=
  c = '_' || c.hexValue?.any (· < base)

def digitsOf (base : Nat) (t : Text) : Bool :=
  !t.isEmpty && t.all (isDigitOf base)

-- Digits and underscores that begin with a digit other than zero, or with any.
def startsPositive (t : Text) : Bool :=
  t.head?.any (·.within 0x31 0x39) && digitsOf 10 t

def startsWithDigit (t : Text) : Bool :=
  t.head?.any CodePoint.isDigit && digitsOf 10 t

-- A part of a number in base sixty after the first: one or two digits below sixty.
def isSixtieth (t : Text) : Bool :=
  match t with
  | [a] => a.isDigit
  | [a, b] => a.within 0x30 0x35 && b.isDigit
  | _ => false

def isSexagesimal (first : Text → Bool) (t : Text) : Bool :=
  match t.splitOn (':' : CodePoint) with
  | head :: part :: parts => first head && (part :: parts).all isSixtieth
  | _ => false

def isInt (t : Text) : Bool :=
  let n := unsigned t
  n = ("0" : Text) || startsPositive n || isSexagesimal startsPositive n ||
    (("0b" : Text).isPrefixOf n && digitsOf 2 (n.drop 2)) ||
    (("0x" : Text).isPrefixOf n && digitsOf 16 (n.drop 2)) ||
    (("0" : Text).isPrefixOf n && digitsOf 8 (n.drop 1))

def isExponent (t : Text) : Bool :=
  match t with
  | [] => true
  | e :: sign :: digits =>
    (e = 'e' || e = 'E') && (sign = '-' || sign = '+') && !digits.isEmpty &&
      digits.all CodePoint.isDigit
  | _ => false

def isFraction (t : Text) : Bool :=
  isExponent (t.dropWhile (isDigitOf 10))

def infinityWords : List Text := [".inf", ".Inf", ".INF"]

def nanWords : List Text := [".nan", ".NaN", ".NAN"]

def isFloat (t : Text) : Bool :=
  let n := unsigned t
  let whole : Text := n.takeWhile (fun c => c ≠ '.')
  let pointed := n.drop whole.length
  let fraction := pointed.drop 1
  infinityWords.contains n || nanWords.contains t ||
    (!pointed.isEmpty &&
      ((startsWithDigit whole && isFraction fraction) ||
        (isSexagesimal startsWithDigit whole && fraction.all (isDigitOf 10)) ||
        (t = n && whole.isEmpty && fraction.head?.any CodePoint.isDigit && isFraction fraction)))

def takeDigits? (least most : Nat) (t : Text) : Option (Text × Text) :=
  let digits := (t.take most).takeWhile CodePoint.isDigit
  if digits.length < least then none else some (digits, t.drop digits.length)

def takeChar? (test : CodePoint → Bool) (t : Text) : Option Text :=
  match t with
  | c :: rest => if test c then some rest else none
  | [] => none

-- The parts of a point in time. A text without a time of day is a day.
structure TimeParts where
  hour : Nat
  minute : Nat
  second : Nat
  -- The distance from universal time in minutes.
  offset : Option Int

structure DateParts where
  year : Nat
  month : Nat
  day : Nat
  time : Option TimeParts

def takeNumber? (least most : Nat) (t : Text) : Option (Nat × Text) :=
  (takeDigits? least most t).map fun (digits, rest) => (Text.decimal digits, rest)

-- The distance from universal time that ends a timestamp; none if there is nothing.
def zone? (t : Text) : Option (Option Int) :=
  match t.dropWhile isGap with
  | [] => if t.isEmpty then some none else none
  | c :: rest =>
    if c = 'Z' then (if rest.isEmpty then some none else none)
    else if c = '+' ∨ c = '-' then do
      let (hours, rest) ← takeNumber? 1 2 rest
      let minutes ←
        if rest.isEmpty then some 0
        else do
          let (minutes, rest) ← takeNumber? 2 2 (← takeChar? (· = ':') rest)
          if rest.isEmpty then some minutes else none
      let total : Int := hours * 60 + minutes
      return some (if c = '-' then -total else total)
    else none

def time? (t : Text) : Option TimeParts := do
  let (hour, t) ← takeNumber? 1 2 t
  let (minute, t) ← takeNumber? 2 2 (← takeChar? (· = ':') t)
  let (second, t) ← takeNumber? 2 2 (← takeChar? (· = ':') t)
  let t := match takeChar? (· = '.') t with
    | some fraction => fraction.dropWhile CodePoint.isDigit
    | none => t
  return ⟨hour, minute, second, ← zone? t⟩

-- The letter T or blanks stand between the day and the time of day.
def afterDay? (t : Text) : Option Text :=
  match t with
  | [] => none
  | c :: rest =>
    if c = 'T' ∨ c = 't' then some rest
    else if isGap c then some (rest.dropWhile isGap)
    else none

def timestamp? (t : Text) : Option DateParts := do
  let (year, t) ← takeNumber? 4 4 t
  let (month, t) ← takeNumber? 1 2 (← takeChar? (· = '-') t)
  let (day, t) ← takeNumber? 1 2 (← takeChar? (· = '-') t)
  if t.isEmpty then return ⟨year, month, day, none⟩
  return ⟨year, month, day, some (← time? (← afterDay? t))⟩

-- A plain scalar is a day only if its numbers have all their digits.
def isTimestamp (t : Text) : Bool :=
  match timestamp? t with
  | none => false
  | some parts => parts.time.isSome || t.length = 10

def ofPlain (t : Text) : Tag :=
  if nullWords.contains t then .null
  else if boolWords.contains t then .bool
  else if isFloat t then .float
  else if isInt t then .int
  else if isTimestamp t then .timestamp
  else if t = ("<<" : Text) then .merge
  else if t = ("=" : Text) then .value
  else .text

end Tag

end Yaml

end SpanTags
