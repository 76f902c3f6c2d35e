import SpanTags.Text.Basic

namespace SpanTags

-- A double-precision binary number. The magnitude of a finite one is its 63 bits
-- without the sign, read as a number, so that larger magnitudes are larger numbers.
inductive Double
  | nan
  | infinite (negative : Bool)
  | finite (negative : Bool) (magnitude : Fin 0x7FF0000000000000)
deriving DecidableEq

namespace Double

def zero : Double := .finite false 0

-- A finite number is its significand times a power of two; both are read off the
-- magnitude, whose upper bits count the powers and whose lower 52 bits are the
-- significand without its leading one.
def significand (magnitude : Nat) : Nat :=
  if magnitude < 2 ^ 52 then magnitude else magnitude % 2 ^ 52 + 2 ^ 52

def exponent (magnitude : Nat) : Int :=
  (max (magnitude / 2 ^ 52) 1 : Nat) - 1075

-- Half of a unit is rounded to the even neighbour.
def roundDiv (num den : Nat) : Nat :=
  let q := num / den
  let r := num % den
  if 2 * r < den then q
  else if 2 * r = den then q + q % 2
  else q + 1

-- `num / den` in units of `2 ^ power`, rounded.
def roundUnits (num den : Nat) (power : Int) : Nat :=
  if power < 0 then roundDiv (num * 2 ^ (-power).toNat) den
  else roundDiv num (den * 2 ^ power.toNat)

def wholeUnits (num den : Nat) (power : Int) : Nat :=
  if power < 0 then num * 2 ^ (-power).toNat / den
  else num / (den * 2 ^ power.toNat)

-- The power of two that the last bit of `num / den` stands for. The logarithms fix it
-- up to one.
def lastPower (num den : Nat) : Int :=
  let guess : Int := (num.log2 : Int) - den.log2 - 53
  let power := if wholeUnits num den guess < 2 ^ 53 then guess else guess + 1
  max power (-1074)

def ofMagnitude (negative : Bool) (magnitude : Nat) : Double :=
  if h : magnitude < 0x7FF0000000000000 then .finite negative ⟨magnitude, h⟩
  else .infinite negative

-- The double nearest to `num / den`. A significand that rounds up to the next power of
-- two carries into the exponent by itself.
def ofRatio (negative : Bool) (num den : Nat) : Double :=
  if num = 0 then .finite negative 0
  else
    let power := lastPower num den
    ofMagnitude negative ((power + 1074).toNat * 2 ^ 52 + roundUnits num den power)

-- The double nearest to `digits * 10 ^ power`. Far outside the range of the doubles
-- the powers of ten are not computed.
def ofDecimal (negative : Bool) (digits : Nat) (power : Int) : Double :=
  let places : Int := (Nat.toDigits 10 digits).length + power
  if digits = 0 then .finite negative 0
  else if places > 310 then .infinite negative
  else if places < -330 then .finite negative 0
  else if power < 0 then ofRatio negative digits (10 ^ (-power).toNat)
  else ofRatio negative (digits * 10 ^ power.toNat) 1

def isFinite : Double → Bool
  | finite _ _ => true
  | _ => false

-- The whole number that a magnitude stands for, if it is one.
def wholeMagnitude? (magnitude : Nat) : Option Nat :=
  let m := significand magnitude
  let e := exponent magnitude
  if e < 0 then
    let unit := 2 ^ (-e).toNat
    if m % unit = 0 then some (m / unit) else none
  else some (m * 2 ^ e.toNat)

def toInt? : Double → Option Int
  | finite negative magnitude =>
    (wholeMagnitude? magnitude.val).map fun n => if negative then -(n : Int) else n
  | _ => none

end Double

end SpanTags
