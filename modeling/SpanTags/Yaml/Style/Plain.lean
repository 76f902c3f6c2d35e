import SpanTags.Yaml.Character

namespace SpanTags

namespace Yaml

-- What separates two words of a scalar that goes over several lines: nothing yet,
-- spaces, or line ends with the column that the new line has reached.
inductive Gap
  | none
  | spaces (count : Nat)
  | breaks (first : CodePoint) (more : Text) (column : Nat)

-- One line feed alone becomes a space; of several the first is dropped.
def folded (first : CodePoint) (more : Text) : Text :=
  if first ≠ '\n' then first :: more
  else if more.isEmpty then " "
  else more

def Gap.text : Gap → Text
  | none => []
  | spaces count => List.replicate count (' ' : CodePoint)
  | breaks first more _ => folded first more

-- A scalar without quotes: its text, the number of code points up to where reading it
-- stopped, and whether that lies on a later line than the text.
structure Plain where
  text : Text
  width : Nat
  brokeLine : Bool

namespace Plain

def starts (inFlow : Bool) (c : CodePoint) (next : Option CodePoint) : Bool :=
  let special := isGap c || isBreak c || isOneOf "-?:,[]\x7b\x7d#&*!|>'\"%@`" c
  !special || (!endsWord next && (c = '-' || (!inFlow && (c = '?' || c = ':'))))

def stops (inFlow : Bool) (c : CodePoint) (next : Option CodePoint) : Bool :=
  c = '\t' || (inFlow && isOneOf ",?[]\x7b\x7d" c) ||
    (c = ':' && (endsWord next || (inFlow && next.all (isOneOf ",[]\x7b\x7d"))))

def finish (written : Text) (gap : Gap) (width : Nat) : Plain :=
  ⟨written.reverse, width, match gap with
    | .breaks _ _ _ => true
    | _ => false⟩

-- Reads on after `width` code points. A continuation line must reach the column
-- `indent`, and neither a comment nor the end of the document continues a scalar.
def readFrom (inFlow : Bool) (indent : Int) : Text → Gap → Nat → Text → Plain
  | written, gap, width, [] => finish written gap width
  | written, gap, width, c :: rest =>
    if c = ' ' then
      let gap := match gap with
        | .none => Gap.spaces 1
        | .spaces count => .spaces (count + 1)
        | .breaks first more column => .breaks first more (column + 1)
      readFrom inFlow indent written gap (width + 1) rest
    else if isBreak c then
      let gap := match gap with
        | .breaks first more _ => Gap.breaks first (more ++ [brokenBy c]) 0
        | _ => .breaks (brokenBy c) [] 0
      if atSeparator rest then finish written gap (width + 1)
      else readFrom inFlow indent written gap (width + 1) rest
    else
      let ended := match gap with
        | .none => false
        | .spaces _ => c = '#'
        | .breaks _ _ column => c = '#' || (!inFlow && (column : Int) < indent)
      if ended || stops inFlow c rest.head? then finish written gap width
      else readFrom inFlow indent (c :: (gap.text.reverse ++ written)) .none (width + 1) rest

def read (inFlow : Bool) (indent : Int) (rest : Text) : Plain :=
  readFrom inFlow indent [] .none 0 rest

end Plain

end Yaml

end SpanTags
