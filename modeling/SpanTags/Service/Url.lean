import SpanTags.Text.Quoted

namespace SpanTags

namespace Url

inductive Fault
  | bracket
  | futureAddress
  | shortAddress
  | noAddress (host : Text)
  | delimiter (authority : Text)
deriving DecidableEq

def Fault.message : Fault → Text
  | bracket => "Invalid IPv6 URL"
  | futureAddress => "IPvFuture address is invalid"
  | shortAddress => "An IPv4 address cannot be in brackets"
  | noAddress host => host.quoted ++ " does not appear to be an IPv4 or IPv6 address"
  | delimiter authority =>
    "netloc '" ++ authority ++ "' contains invalid characters under NFKC normalization"

-- Blanks and control characters in front do not count, nor do tabs and line ends anywhere.
def clean (t : Text) : Text :=
  (t.trimLeft (·.val ≤ 0x20)).filter fun c => c ∉ ("\t\r\n" : Text)

def isSchemeCodePoint (c : CodePoint) : Bool :=
  c.isAsciiLetter || c.isDigit || c ∈ ("+-." : Text)

def afterScheme (t : Text) : Text :=
  let scheme : Text := t.takeWhile (fun c => c ≠ ':')
  let start := scheme.head?.any CodePoint.isAsciiLetter
  if start && scheme.all isSchemeCodePoint && scheme.length < t.length then
    t.drop (scheme.length + 1)
  else t

-- The authority stands after two slashes and ends where the path, the query or the fragment
-- starts.
def splitAuthority (t : Text) : Text × Text :=
  if ("//" : Text).isPrefixOf t then (t.drop 2).span (fun c => c ∉ ("/?#" : Text)) else ([], t)

def isOctet (t : Text) : Bool :=
  !t.isEmpty && t.length ≤ 3 && t.all CodePoint.isDigit &&
    (t.length = 1 || t.head? ≠ some ('0' : CodePoint)) && Text.decimal t ≤ 255

def isShortAddress (t : Text) : Bool :=
  let octets := t.splitOn ('.' : CodePoint)
  octets.length = 4 && octets.all isOctet

def isGroup (t : Text) : Bool :=
  !t.isEmpty && t.length ≤ 4 && t.all (·.hexValue?.isSome)

-- The groups of an address between its colons. The last two can be given as a short address.
def groups? (t : Text) : Option (List Text) :=
  let pieces := t.splitOn (':' : CodePoint)
  let last := pieces.getLast?.getD []
  if ('.' : CodePoint) ∉ last then some pieces
  else if isShortAddress last then some (pieces.dropLast ++ (["0", "0"] : List Text))
  else none

-- Two colons leave out some of the eight groups, and can stand once, also at an end.
def hasGroups (pieces : List Text) : Bool :=
  let outer (side : List Text) := if side = [[]] then [] else side
  let first := pieces.take 1
  let inner := pieces.drop 1
  let before := first ++ inner.takeWhile (!·.isEmpty)
  if before.length + 1 < pieces.length then
    let given := outer before ++ outer (pieces.drop (before.length + 1))
    given.length < 8 && given.all isGroup
  else pieces.length = 8 && pieces.all isGroup

-- A percent sign names the zone of the address.
def isLongAddress (t : Text) : Bool :=
  let address : Text := t.takeWhile (fun c => c ≠ '%')
  let zone := t.drop (address.length + 1)
  let named := address.length = t.length || !zone.isEmpty && ('%' : CodePoint) ∉ zone
  named && (groups? address).any hasGroups

def isFutureAddress (t : Text) : Bool :=
  let version := (t.drop 1).takeWhile (·.hexValue?.isSome)
  match t.drop (version.length + 1) with
  | point :: rest => !version.isEmpty && point = '.' && !rest.isEmpty
  | [] => false

def checkHost (host : Text) : Except Fault Unit :=
  if host.head? = some ('v' : CodePoint) then
    if isFutureAddress host then .ok () else .error .futureAddress
  else if isShortAddress host then .error .shortAddress
  else if isLongAddress host then .ok ()
  else .error (.noAddress host)

-- Compatible forms of the characters that an authority ends at or is divided by.
def delimiters : List Nat := [
  0x2047, 0x2048, 0x2049, 0x2100, 0x2101, 0x2105, 0x2106, 0x2A74, 0xFE13, 0xFE16, 0xFE55, 0xFE56,
  0xFE5F, 0xFE6B, 0xFF03, 0xFF0F, 0xFF1A, 0xFF1F, 0xFF20]

-- Brackets enclose an address, so that one does not come without the other.
def checkAuthority (authority : Text) : Except Fault Unit := do
  let opened := authority.contains ('[' : CodePoint)
  let closed := authority.contains (']' : CodePoint)
  if opened ≠ closed then throw .bracket
  if opened then
    let enclosed : Text := authority.dropWhile (fun c => c ≠ '[')
    checkHost ((enclosed.drop 1).takeWhile (fun c => c ≠ ']'))
  if authority.any (·.val ∈ delimiters) then throw (.delimiter authority)

def path (t : Text) : Except Fault Text := do
  let (authority, rest) := splitAuthority (afterScheme (clean t))
  checkAuthority authority
  return rest.takeWhile (fun c => c ∉ ("?#" : Text))

end Url

end SpanTags
