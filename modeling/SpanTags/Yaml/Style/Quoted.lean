import SpanTags.Yaml.Fault
import SpanTags.Yaml.Style.Plain

namespace SpanTags

namespace Yaml

namespace Quoted

-- What precedes the next code point of a quoted scalar. An escaped line end leaves
-- nothing but the further line ends after it.
inductive Pending
  | none
  | gaps (written : Text)
  | breaks (first : CodePoint) (more : Text)
  | escaped (more : Text)

def Pending.text : Pending → Text
  | none => []
  | gaps written => written.reverse
  | breaks first more => folded first more
  | escaped more => more

def shortEscapes : List (CodePoint × CodePoint) := [
  ('0', '\x00'), ('a', '\x07'), ('b', '\x08'), ('t', '\t'), ('\t', '\t'), ('n', '\n'),
  ('v', '\x0B'), ('f', '\x0C'), ('r', '\r'), ('e', '\x1B'), (' ', ' '), ('"', '"'),
  ('\\', '\\'), ('/', '/'), ('N', '\x85'), ('_', '\xA0'), ('L', '\u2028'), ('P', '\u2029')]

def escapeWidth? (letter : CodePoint) : Option Nat :=
  if letter = 'x' then some 2
  else if letter = 'u' then some 4
  else if letter = 'U' then some 8
  else none

-- What a backslash writes, with the number of code points after it that belong to it.
def escape (letter : CodePoint) (rest : Text) : Except Fault (CodePoint × Nat) :=
  match shortEscapes.lookup letter with
  | some c => .ok (c, 1)
  | none =>
    match escapeWidth? letter with
    | none => .error .malformed
    | some width =>
      let digits := rest.take width
      match digits.mapM CodePoint.hexValue? with
      | none => .error .malformed
      | some values =>
        if values.length < width then .error .malformed
        else
          let n := Text.numeral 16 values
          match CodePoint.ofNat? n with
          | some c => .ok (c, width + 1)
          | none => .error (.codePoint n)

-- Reads on after `width` code points. `skip` counts code points that an escape has
-- already taken. The result counts the closing quote too.
def readFrom (double : Bool) : Text → Pending → Nat → Nat → Text → Except Fault (Text × Nat)
  | _, _, _, _, [] => .error .malformed
  | written, pending, skip + 1, width, _ :: rest =>
    readFrom double written pending skip (width + 1) rest
  | written, pending, 0, width, c :: rest =>
    if isBreak c then
      let pending := match pending with
        | .breaks first more => Pending.breaks first (more ++ [brokenBy c])
        | .escaped more => .escaped (more ++ [brokenBy c])
        | _ => .breaks (brokenBy c) []
      if atSeparator rest then .error .malformed
      else readFrom double written pending 0 (width + 1) rest
    else if isGap c then
      let pending := match pending with
        | .none => Pending.gaps [c]
        | .gaps run => .gaps (c :: run)
        | broken => broken
      readFrom double written pending 0 (width + 1) rest
    else
      let written := pending.text.reverse ++ written
      if double then
        if c = '"' then .ok (written.reverse, width + 1)
        else if c = '\\' then
          match rest with
          | [] => .error .malformed
          | letter :: more =>
            if isBreak letter then
              if atSeparator more then .error .malformed
              else readFrom double written (.escaped []) 1 (width + 1) rest
            else match escape letter more with
              | .error fault => .error fault
              | .ok (d, taken) => readFrom double (d :: written) .none taken (width + 1) rest
        else readFrom double (c :: written) .none 0 (width + 1) rest
      else if c = '\'' then
        if rest.head? = some ('\'' : CodePoint) then
          readFrom double (c :: written) .none 1 (width + 1) rest
        else .ok (written.reverse, width + 1)
      else readFrom double (c :: written) .none 0 (width + 1) rest

def read (double : Bool) (rest : Text) : Except Fault (Text × Nat) :=
  readFrom double [] .none 0 0 rest

end Quoted

end Yaml

end SpanTags
