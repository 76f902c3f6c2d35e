import SpanTags.Text.Basic

namespace SpanTags

namespace Yaml

-- Carriage returns do not occur: a file's line ends are made line feeds before.
def isBreak (c : CodePoint) : Bool :=
  c = '\n' || c = '\x85' || c.within 0x2028 0x2029

-- A next line mark counts as a line feed.
def brokenBy (c : CodePoint) : CodePoint :=
  if c = '\x85' then '\n' else c

def isGap (c : CodePoint) : Bool :=
  c = ' ' || c = '\t'

def endsWord (next : Option CodePoint) : Bool :=
  next.all fun (c : CodePoint) => isGap c || isBreak c

def endsField (next : Option CodePoint) : Bool :=
  next.all fun (c : CodePoint) => c = ' ' || isBreak c

def endsLine (next : Option CodePoint) : Bool :=
  next.all isBreak

def isAllowed (c : CodePoint) : Bool :=
  c = '\t' || c = '\n' || c = '\r' || c.within 0x20 0x7E || c = '\x85' || c.within 0xA0 0xD7FF ||
    c.within 0xE000 0xFFFD || c.within 0x10000 0x10FFFF

def isOneOf (set : Text) (c : CodePoint) : Bool :=
  c ∈ set

def isNameChar (c : CodePoint) : Bool :=
  c.isDigit || c.isAsciiLetter || isOneOf "-_" c

def isUriChar (c : CodePoint) : Bool :=
  c.isDigit || c.isAsciiLetter || isOneOf "-;/?:@&=+$,_.!~*\'()[]%" c

-- Three hyphens or three dots at the start of a line stand between documents.
def startsWithMark (mark rest : Text) : Bool :=
  mark.isPrefixOf rest && endsWord (rest.drop 3).head?

def atSeparator (rest : Text) : Bool :=
  startsWithMark "---" rest || startsWithMark "..." rest

-- A place in a document. Columns count from the last line end, and byte order marks
-- take none.
structure Position where
  rest : Text
  index : Nat
  line : Nat
  column : Nat

namespace Position

def start (document : Text) : Position := ⟨document, 0, 0, 0⟩

def advance : Nat → Position → Position
  | 0, p => p
  | n + 1, p =>
    match p.rest with
    | [] => p
    | c :: rest =>
      if isBreak c then advance n ⟨rest, p.index + 1, p.line + 1, 0⟩
      else if c = '\uFEFF' then advance n ⟨rest, p.index + 1, p.line, p.column⟩
      else advance n ⟨rest, p.index + 1, p.line, p.column + 1⟩

def peek (p : Position) : Option CodePoint :=
  p.rest.head?

def span (test : CodePoint → Bool) (p : Position) : Text × Position :=
  let taken := p.rest.takeWhile test
  (taken, p.advance taken.length)

def skip (test : CodePoint → Bool) (p : Position) : Position :=
  (p.span test).2

end Position

end Yaml

end SpanTags
