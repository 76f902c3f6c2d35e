import SpanTags.Number.Shortest

namespace SpanTags

-- How the digits of a number are laid out. They are written positionally when more
-- than `fewestPlaces` and at most `mostPlaces` of them stand before the point, and
-- with an exponent of at least `exponentWidth` digits otherwise.
structure Layout where
  fewestPlaces : Int
  mostPlaces : Int
  exponentWidth : Nat

namespace Layout

def plain : Layout := ⟨-4, 16, 2⟩

def zeros (n : Nat) : Text :=
  List.replicate n ('0' : CodePoint)

-- A whole number keeps one zero after the point.
def positional (digits : Text) (places : Int) : Text :=
  if places ≤ 0 then "0." ++ zeros (-places).toNat ++ digits
  else
    let before := places.toNat
    let fraction := digits.drop before
    digits.take before ++ zeros (before - digits.length) ++ "." ++
      (if fraction.isEmpty then zeros 1 else fraction)

def scientific (layout : Layout) (digits : Text) (places : Int) : Text :=
  let e := places - 1
  let size := Text.ofNat e.natAbs
  let fraction := digits.drop 1
  let point : Text := if fraction.isEmpty then "" else "."
  let sign : Text := if e < 0 then "-" else "+"
  digits.take 1 ++ point ++ fraction ++ "e" ++ sign ++
    zeros (layout.exponentWidth - size.length) ++ size

def render (layout : Layout) (digits : Nat) (place : Int) : Text :=
  let all := Text.ofNat digits
  let kept := all.trimRight (fun c => c = '0')
  let places : Int := (all.length : Int) + place
  if layout.fewestPlaces < places ∧ places ≤ layout.mostPlaces then positional kept places
  else layout.scientific kept places

end Layout

namespace Double

def magnitudeText (magnitude : Nat) : Text :=
  if magnitude = 0 then "0.0"
  else
    let (digits, place) := shortest magnitude
    Layout.plain.render digits place

def signed (negative : Bool) (t : Text) : Text :=
  if negative then ('-' : CodePoint) :: t else t

-- The shortest text that reads back as the number.
def text : Double → Text
  | nan => "nan"
  | infinite negative => signed negative "inf"
  | finite negative magnitude => signed negative (magnitudeText magnitude.val)

end Double

-- A whole number of more decimal digits than this is neither written nor read.
def digitLimit : Nat := 4300

-- The refusal of a number; one that was being read is refused with its digit count.
structure TooManyDigits where
  readDigits : Option Nat
deriving DecidableEq

def TooManyDigits.message (e : TooManyDigits) : Text :=
  let count : Text := match e.readDigits with
    | none => ""
    | some n => ": value has " ++ Text.ofNat n ++ " digits"
  "Exceeds the limit (4300 digits) for integer string conversion" ++ count ++
    "; use sys.set_int_max_str_digits() to increase the limit"

def writeWhole (n : Int) : Except TooManyDigits Text :=
  if n.natAbs < 10 ^ digitLimit then .ok (Text.ofInt n) else .error ⟨none⟩

def readWhole (negative : Bool) (digits : Text) : Except TooManyDigits Int :=
  if digits.length ≤ digitLimit then
    let n := Text.decimal digits
    .ok (if negative then -(n : Int) else n)
  else .error ⟨some digits.length⟩

end SpanTags
