import SpanTags.Json.Fault
import SpanTags.Payload.Basic

namespace SpanTags

namespace Json

-- Where in a document something is wrong, before lines and columns are counted.
inductive Stop
  | cause (cause : Cause) (offset : Nat)
  | constant (name : Text)
  | number (fault : TooManyDigits)
  | tooDeep (nest : Nest)

def Stop.fault (document : Text) : Stop → Fault
  | cause c offset => .syntaxAt c (Place.at document offset)
  | constant name => .constant name
  | number fault => .number fault
  | tooDeep nest => .tooDeep nest

inductive Lexeme
  | mark (c : CodePoint)
  | text (t : Text)
  | scalar (s : Scalar)

def isSpace (c : CodePoint) : Bool :=
  c = ' ' || c = '\t' || c = '\n' || c = '\r'

def isMark (c : CodePoint) : Bool :=
  c = '{' || c = '}' || c = '[' || c = ']' || c = ',' || c = ':'

def hexNumber? (digits : Text) : Option Nat :=
  (digits.mapM CodePoint.hexValue?).map (Text.numeral 16)

def shortEscape? (c : CodePoint) : Option CodePoint :=
  if c = '"' ∨ c = '\\' ∨ c = '/' then some c
  else if c = 'b' then some '\x08'
  else if c = 'f' then some '\x0C'
  else if c = 'n' then some '\n'
  else if c = 'r' then some '\r'
  else if c = 't' then some '\t'
  else none

def fromHex? (digits : Text) : Option CodePoint :=
  (hexNumber? digits).bind CodePoint.ofNat?

-- What an escape writes, and how many code points of the document it takes.
inductive Escape
  | char (c : CodePoint) (width : Nat)
  | bad (cause : Cause) (ahead : Nat)

-- The low half of a pair, `some none` if a well formed escape writes something else, and
-- `none` if its digits are bad. At least one code point must follow the digits.
def lowHalf? (rest : Text) : Option (Option CodePoint) :=
  match rest with
  | backslash :: u :: a :: b :: c :: d :: _ :: _ =>
    if backslash = '\\' ∧ u = 'u' then
      match fromHex? [a, b, c, d] with
      | some low => some (if low.isLowSurrogate then some low else none)
      | none => none
    else some none
  | _ => some none

def unicodeEscape (rest : Text) : Escape :=
  match rest with
  | a :: b :: c :: d :: e :: more =>
    match fromHex? [a, b, c, d] with
    | none => .bad .unfinishedEscape 1
    | some high =>
      if high.isHighSurrogate then
        match lowHalf? (e :: more) with
        | none => .bad .unfinishedEscape 7
        | some none => .char high 6
        | some (some low) => .char (.ofPair high low) 12
      else .char high 6
  | _ => .bad .unfinishedEscape 1

def escape (rest : Text) : Option Escape :=
  match rest with
  | [] => none
  | c :: more =>
    if c = 'u' then some (unicodeEscape more)
    else match shortEscape? c with
      | some written => some (.char written 2)
      | none => some (.bad .unknownEscape 0)

-- Reads a string up to its closing quote. `start` is the offset of the opening quote,
-- `offset` that of the next code point, `skip` counts code points of an escape that is
-- already read, and `written` holds the text so far in reverse. The result counts the
-- code points after the opening quote, the closing one included.
def stringBody (start : Nat) : Nat → Nat → Text → Text → Except Stop (Text × Nat)
  | _, _, _, [] => .error (.cause .unterminatedString start)
  | offset, skip + 1, written, _ :: rest => stringBody start (offset + 1) skip written rest
  | offset, 0, written, c :: rest =>
    if c = '"' then .ok (written.reverse, offset - start)
    else if c = '\\' then
      match escape rest with
      | none => .error (.cause .unterminatedString start)
      | some (.bad cause ahead) => .error (.cause cause (offset + ahead))
      | some (.char d width) => stringBody start (offset + 1) (width - 1) (d :: written) rest
    else if c.val < 0x20 then .error (.cause .controlCharacter offset)
    else stringBody start (offset + 1) 0 (c :: written) rest

def fractionDigits (rest : Text) : Text :=
  match rest with
  | c :: more => if c = '.' then more.takeWhile CodePoint.isDigit else []
  | [] => []

-- The exponent with the number of code points that write it. Without a digit there is
-- no exponent.
def exponentPart (rest : Text) : Option (Int × Nat) :=
  match rest with
  | [] => none
  | e :: more =>
    if e = 'e' ∨ e = 'E' then
      let (negative, signs, digitsFrom) : Bool × Nat × Text := match more with
        | s :: others =>
          if s = '-' then (true, 1, others)
          else if s = '+' then (false, 1, others)
          else (false, 0, more)
        | [] => (false, 0, more)
      let digits := digitsFrom.takeWhile CodePoint.isDigit
      if digits.isEmpty then none
      else
        let n : Int := Text.decimal digits
        some (if negative then -n else n, 1 + signs + digits.length)
    else none

def wholeDigits (rest : Text) : Text :=
  match rest with
  | c :: more =>
    if c = '0' then [c]
    else if c.isDigit then c :: more.takeWhile CodePoint.isDigit
    else []
  | [] => []

def unsignedNumber (negative : Bool) (rest : Text) : Option (Except Stop Scalar × Nat) :=
  let whole := wholeDigits rest
  if whole.isEmpty then none
  else
    let afterWhole := rest.drop whole.length
    let fraction := fractionDigits afterWhole
    let fractionWidth := if fraction.isEmpty then 0 else fraction.length + 1
    let exponent := exponentPart (afterWhole.drop fractionWidth)
    match fraction.isEmpty, exponent with
    | true, none =>
      let scalar : Except Stop Scalar := match readWhole negative whole with
        | .ok n => .ok (.int n)
        | .error fault => .error (.number fault)
      some (scalar, whole.length)
    | _, _ =>
      let (power, width) := exponent.getD (0, 0)
      let x := Double.ofDecimal negative (Text.decimal (whole ++ fraction))
        (power - (fraction.length : Int))
      some (.ok (.float x), whole.length + fractionWidth + width)

def number (rest : Text) : Option (Except Stop Scalar × Nat) :=
  match rest with
  | c :: more =>
    if c = '-' then (unsignedNumber true more).map fun (scalar, width) => (scalar, width + 1)
    else unsignedNumber false rest
  | [] => none

def words : List (Text × Scalar) := [
  ("null", .null),
  ("true", .bool true),
  ("false", .bool false)]

-- Words for numbers that standard JSON does not have.
def constants : List (Text × Double) := [
  ("NaN", .nan),
  ("Infinity", .infinite false),
  ("-Infinity", .infinite true)]

-- A dialect either takes the constants as numbers or refuses a document that has one,
-- and it refuses more than `nestingLimit` containers inside each other.
structure Dialect where
  takesConstants : Bool
  nestingLimit : Nat

def wordAt? {α : Type} (table : List (Text × α)) (rest : Text) : Option (Text × α) :=
  table.find? fun (name, _) => name.isPrefixOf rest

-- The lexeme at `offset`, or `none` if nothing starts there.
def lexeme (dialect : Dialect) (offset : Nat) (c : CodePoint) (rest : Text) :
    Option (Except Stop Lexeme × Nat) :=
  if isMark c then some (.ok (.mark c), 1)
  else if c = '"' then
    match stringBody offset (offset + 1) 0 [] rest with
    | .ok (t, width) => some (.ok (.text t), width + 1)
    | .error stop => some (.error stop, 1)
  else match wordAt? words (c :: rest) with
  | some (name, s) => some (.ok (.scalar s), name.length)
  | none =>
    match wordAt? constants (c :: rest) with
    | some (name, x) =>
      if dialect.takesConstants then some (.ok (.scalar (.float x)), name.length)
      else some (.error (.constant name), name.length)
    | none =>
      (number (c :: rest)).map fun (scalar, width) => (scalar.map Lexeme.scalar, width)

end Json

end SpanTags
