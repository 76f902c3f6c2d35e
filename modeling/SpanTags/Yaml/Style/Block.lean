import SpanTags.Yaml.Fault
import SpanTags.Yaml.Character

namespace SpanTags

namespace Yaml

inductive Chomping
  | clip
  | strip
  | keep

namespace Block

structure Header where
  chomping : Chomping
  indent : Option Nat

-- The sign and the digit of a header may come in either order.
def header (p : Position) : Except Fault (Header × Position) :=
  let chomping? (p : Position) : Option Chomping × Position :=
    if p.peek = some ('+' : CodePoint) then (some .keep, p.advance 1)
    else if p.peek = some ('-' : CodePoint) then (some .strip, p.advance 1)
    else (none, p)
  let indent? (p : Position) : Option Nat × Position :=
    match p.peek with
    | some c => if c.isDigit then (some c.digitValue, p.advance 1) else (none, p)
    | none => (none, p)
  let (first, p) := chomping? p
  let (indent, p) := indent? p
  let (second, p) := if first.isNone && indent.isSome then chomping? p else (none, p)
  if indent = some 0 || !endsField p.peek then .error .malformed
  else .ok (⟨(first.or second).getD .clip, indent⟩, p)

-- Blanks and a comment may follow up to the end of the line.
def restOfLine (p : Position) : Except Fault Position :=
  let p := p.skip (fun c => c = ' ')
  let p := if p.peek = some ('#' : CodePoint) then p.skip (!isBreak ·) else p
  if endsLine p.peek then .ok (p.advance 1) else .error .malformed

-- The empty lines before the first line of the text, the deepest column that spaces
-- reach, and the place of the text.
def leadingLines : Nat → Position → Text × Nat × Position
  | 0, p => ([], 0, p)
  | fuel + 1, p =>
    match p.peek with
    | none => ([], 0, p)
    | some c =>
      if c = ' ' then
        let (breaks, deepest, q) := leadingLines fuel (p.advance 1)
        (breaks, max deepest (p.column + 1), q)
      else if isBreak c then
        let (breaks, deepest, q) := leadingLines fuel (p.advance 1)
        (brokenBy c :: breaks, deepest, q)
      else ([], 0, p)

-- Where in a block reading stands: at the start of a line, with the column and the
-- empty lines since the last text line, or within a line of text.
inductive Mode
  | lineStart (column : Nat) (breaks : Text)
  | inLine

-- The text lines so far in reverse, the line end after the last one, and whether that
-- one began with a blank.
structure Lines where
  written : Text
  lineBreak : Text
  beganBlank : Bool

-- Folding joins two lines by a space, unless one of them begins with a blank.
def Lines.join (isFolded isFirst : Bool) (breaks : Text) (c : CodePoint) (lines : Lines) : Lines :=
  let between : Text :=
    if isFirst then []
    else if isFolded && lines.lineBreak = ("\n" : Text) && !lines.beganBlank && !isGap c then
      (if breaks.isEmpty then " " else "")
    else lines.lineBreak
  ⟨c :: ((between ++ breaks).reverse ++ lines.written), [], isGap c⟩

-- Reads on after `width` code points: the lines, the empty lines at the end, and the
-- width.
def linesFrom (isFolded : Bool) (indent : Nat) :
    Lines → Bool → Mode → Nat → Text → Lines × Text × Nat
  | lines, _, .lineStart _ breaks, width, [] => (lines, breaks, width)
  | lines, _, .inLine, width, [] => (lines, [], width)
  | lines, isFirst, .inLine, width, c :: rest =>
    if isBreak c then
      linesFrom isFolded indent { lines with lineBreak := [brokenBy c] } isFirst (.lineStart 0 [])
        (width + 1) rest
    else
      linesFrom isFolded indent { lines with written := c :: lines.written } isFirst .inLine
        (width + 1) rest
  | lines, isFirst, .lineStart column breaks, width, c :: rest =>
    if isBreak c then
      linesFrom isFolded indent lines isFirst (.lineStart 0 (breaks ++ [brokenBy c])) (width + 1)
        rest
    else if column < indent && c = ' ' then
      linesFrom isFolded indent lines isFirst (.lineStart (column + 1) breaks) (width + 1) rest
    else if column = indent then
      linesFrom isFolded indent (lines.join isFolded isFirst breaks c) false .inLine (width + 1)
        rest
    else (lines, breaks, width)

def chomped (chomping : Chomping) (lines : Lines) (breaks : Text) : Text :=
  let tail : Text := match chomping with
    | .strip => []
    | .clip => lines.lineBreak
    | .keep => lines.lineBreak ++ breaks
  lines.written.reverse ++ tail

-- The scalar whose indicator has just been read, with the place after it. Its lines are
-- indented deeper than `parent`.
def read (isFolded : Bool) (parent : Int) (p : Position) : Except Fault (Text × Position) := do
  let (header, p) ← header p
  let p ← restOfLine p
  let least := (parent + 1).toNat.max 1
  let (indent, breaks, p) := match header.indent with
    | some n => (least + n - 1, [], p)
    | none =>
      let (breaks, deepest, q) := leadingLines p.rest.length p
      (least.max deepest, breaks, q)
  let (lines, breaks, width) :=
    linesFrom isFolded indent ⟨[], [], false⟩ true (.lineStart p.column breaks) 0 p.rest
  return (chomped header.chomping lines breaks, p.advance width)

end Block

end Yaml

end SpanTags
