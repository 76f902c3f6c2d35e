namespace SpanTags

-- Powers are those of the core library, whichever other libraries are at hand.
attribute [instance (20000), default_instance (20000)] instPowNat

-- A code point. The halves of surrogate pairs are included, since a payload may
-- hold one of them without its partner.
structure CodePoint where
  val : Nat
  isLt : val < 0x110000
deriving DecidableEq

namespace CodePoint

def ofChar (c : Char) : CodePoint :=
  ⟨c.toNat, by
    have h := c.valid
    simp only [UInt32.isValidChar, Nat.isValidChar] at h
    show c.val.toNat < 0x110000
    omega⟩

instance : Coe Char CodePoint := ⟨ofChar⟩

def ofNat? (n : Nat) : Option CodePoint :=
  if h : n < 0x110000 then some ⟨n, h⟩ else none

def replacement : CodePoint := '\uFFFD'

def ofByte (b : UInt8) : CodePoint :=
  ⟨b.toNat, Nat.lt_trans b.toNat_lt (by decide)⟩

def within (low high : Nat) (c : CodePoint) : Bool :=
  low ≤ c.val && c.val ≤ high

def isAscii (c : CodePoint) : Bool :=
  c.val < 0x80

def isSurrogate (c : CodePoint) : Bool :=
  c.within 0xD800 0xDFFF

def isHighSurrogate (c : CodePoint) : Bool :=
  c.within 0xD800 0xDBFF

def isLowSurrogate (c : CodePoint) : Bool :=
  c.within 0xDC00 0xDFFF

def ofPair (high low : CodePoint) : CodePoint :=
  (ofNat? (0x10000 + (high.val - 0xD800) * 0x400 + (low.val - 0xDC00))).getD replacement

-- ASCII digits only: the digits of other scripts write no number here.
def isDigit (c : CodePoint) : Bool :=
  c.within 0x30 0x39

def digitValue (c : CodePoint) : Nat :=
  c.val - 0x30

def hexValue? (c : CodePoint) : Option Nat :=
  if c.within 0x30 0x39 then some (c.val - 0x30)
  else if c.within 0x41 0x46 then some (c.val - 0x41 + 10)
  else if c.within 0x61 0x66 then some (c.val - 0x61 + 10)
  else none

def isAsciiLetter (c : CodePoint) : Bool :=
  c.within 0x41 0x5A || c.within 0x61 0x7A

-- Lower case as far as an ASCII word can show it: besides A to Z only the Kelvin
-- sign has an ASCII lower case letter. Every other code point stays as it is.
def asciiLower (c : CodePoint) : CodePoint :=
  if h : c.within 0x41 0x5A then
    ⟨c.val + 0x20, by
      simp only [within, Bool.and_eq_true, decide_eq_true_eq] at h
      omega⟩
  else if c.val = 0x212A then 'k'
  else c

-- The Unicode property White_Space.
def isWhiteSpace (c : CodePoint) : Bool :=
  c.within 0x09 0x0D || c.val = 0x20 || c.val = 0x85 || c.val = 0xA0 || c.val = 0x1680 ||
    c.within 0x2000 0x200A || c.within 0x2028 0x2029 || c.val = 0x202F || c.val = 0x205F ||
    c.val = 0x3000

-- White space together with the four information separators.
def isBlank (c : CodePoint) : Bool :=
  c.isWhiteSpace || c.within 0x1C 0x1F

end CodePoint

abbrev Text := List CodePoint

namespace Text

instance : LawfulBEq Text := inferInstance

def ofString (s : String) : Text :=
  s.toList.map CodePoint.ofChar

instance : Coe String Text := ⟨ofString⟩

instance : Coe Char Text := ⟨fun c => [c]⟩

def ofNat (n : Nat) : Text :=
  (Nat.toDigits 10 n).map CodePoint.ofChar

def ofInt (n : Int) : Text :=
  if n < 0 then ('-' : CodePoint) :: ofNat n.natAbs else ofNat n.natAbs

def ofHex (width n : Nat) : Text :=
  let digits : Text := (Nat.toDigits 16 n).map CodePoint.ofChar
  List.replicate (width - digits.length) ('0' : CodePoint) ++ digits

def numeral (base : Nat) (digits : List Nat) : Nat :=
  digits.foldl (fun n d => n * base + d) 0

def decimal (digits : Text) : Nat :=
  numeral 10 (digits.map CodePoint.digitValue)

def asciiLower (t : Text) : Text :=
  t.map CodePoint.asciiLower

-- What follows the last separator, or all of the text if there is none.
def lastPiece (separator : CodePoint) (t : Text) : Text :=
  (t.reverse.takeWhile (· ≠ separator)).reverse

def join (separator : Text) (pieces : List Text) : Text :=
  separator.intercalate pieces

def trimLeft (drop : CodePoint → Bool) (t : Text) : Text :=
  t.dropWhile drop

def trimRight (drop : CodePoint → Bool) (t : Text) : Text :=
  (t.reverse.dropWhile drop).reverse

def trim (drop : CodePoint → Bool) (t : Text) : Text :=
  (t.trimLeft drop).trimRight drop

def strip (t : Text) : Text :=
  t.trim CodePoint.isBlank

end Text

end SpanTags
