import SpanTags.Number.Double

namespace SpanTags

namespace Double

-- The reals that round to a magnitude lie between two bounds around its value. All
-- three are written in quarters of the unit of its last bit; the bounds themselves
-- belong to the interval when the significand is even.
structure Interval where
  low : Nat
  value : Nat
  high : Nat
  closed : Bool

-- Below a power of two the neighbour is only half a unit away.
def interval (magnitude : Nat) : Interval :=
  let m := significand magnitude
  let narrow := magnitude % 2 ^ 52 = 0 && magnitude / 2 ^ 52 > 1
  ⟨4 * m - (if narrow then 1 else 2), 4 * m, 4 * m + 2, m % 2 = 0⟩

-- `quarters` quarter units of `2 ^ power` against `count * 10 ^ place`, both sides made
-- whole by the same factor.
def scaled (quarters : Nat) (power place : Int) : Nat :=
  quarters * 2 ^ power.toNat * 10 ^ (-place).toNat

def gridScaled (count : Nat) (power place : Int) : Nat :=
  count * 4 * 2 ^ (-power).toNat * 10 ^ place.toNat

def Interval.contains (i : Interval) (power place : Int) (count : Nat) : Bool :=
  let point := gridScaled count power place
  let low := scaled i.low power place
  let high := scaled i.high power place
  if i.closed then low ≤ point && point ≤ high else low < point && point < high

-- Of the two neighbours of the value on a decimal grid, the one that reads back; of
-- two, the nearer; of two equally near, the even one.
def Interval.gridPoint? (i : Interval) (power place : Int) : Option Nat :=
  let value := scaled i.value power place
  let below := value / gridScaled 1 power place
  let above := below + 1
  let under := value - gridScaled below power place
  let excess := gridScaled above power place - value
  match i.contains power place below, i.contains power place above with
  | false, false => none
  | true, false => some below
  | false, true => some above
  | true, true =>
    if under < excess then some below
    else if excess < under then some above
    else some (if below % 2 = 0 then below else above)

-- The number of digits before the point of a positive magnitude, negative for zeros
-- that follow the point. Scaling by `10 ^ 400` makes every positive double exceed one.
def integerPlaces (magnitude : Nat) : Int :=
  let m := significand magnitude
  let e := exponent magnitude
  let whole := m * 10 ^ 400 * 2 ^ e.toNat / 2 ^ (-e).toNat
  ((Nat.toDigits 10 whole).length : Int) - 400

def shortestFrom (i : Interval) (power places : Int) : Nat → Nat → Nat × Int
  | 0, count => (scaled i.value power 0 / gridScaled 1 power 0, places - count)
  | tries + 1, count =>
    let place := places - count
    match i.gridPoint? power place with
    | some digits => (digits, place)
    | none => shortestFrom i power places tries (count + 1)

-- The fewest decimal digits that read back as the magnitude, with the power of ten of
-- the last one. Seventeen always suffice.
def shortest (magnitude : Nat) : Nat × Int :=
  shortestFrom (interval magnitude) (exponent magnitude) (integerPlaces magnitude) 17 1

end Double

end SpanTags
