import SpanTags.Text.Basic
import SpanTags.Text.Quoted

namespace SpanTags

inductive Segment
  | literal (key : Text)
  | wildcard
deriving DecidableEq

-- A rule is about the paths that begin with its segments. It is never empty once read.
abbrev Rule := List Segment

inductive RuleFault
  | emptyRule (source : Text)
  | emptySegment (rule : Text)
  | danglingEscape (rule : Text)
deriving DecidableEq

def RuleFault.message : RuleFault → Text
  | emptyRule source => "Empty rule in mask: " ++ source.quoted
  | emptySegment rule => "Empty segment in mask rule: " ++ rule.quoted
  | danglingEscape rule => "Dangling escape in mask rule: " ++ rule.quoted

-- A unit of a rule's source: a character that stands for itself, one that a backslash
-- precedes, or a backslash with nothing after it.
inductive Atom
  | plain (c : CodePoint)
  | escaped (c : CodePoint)
  | dangling
deriving DecidableEq

namespace Atom

def ofText : Text → List Atom
  | [] => []
  | [c] => [if c = '\\' then .dangling else .plain c]
  | c :: d :: rest =>
    if c = '\\' then .escaped d :: ofText rest else .plain c :: ofText (d :: rest)

def source : Atom → Text
  | plain c => [c]
  | escaped c => ['\\', c]
  | dangling => ['\\']

def meaning : Atom → Text
  | plain c => [c]
  | escaped c => [c]
  | dangling => []

end Atom

-- The sources of the rules in a list: the pieces between the plain commas, as written.
def splitRules (source : Text) : List Text :=
  ((Atom.ofText source).splitOn (.plain ',')).map (·.flatMap Atom.source)

-- Only a star that stands alone and without a backslash is a wildcard.
def Segment.ofAtoms (rule : Text) (piece : List Atom) : Except RuleFault Segment :=
  if .dangling ∈ piece then .error (.danglingEscape rule)
  else if piece = [] then .error (.emptySegment rule)
  else if piece = [.plain '*'] then .ok .wildcard
  else .ok (.literal (piece.flatMap Atom.meaning))

-- The segments stand between the plain dots of a rule. The first one that is at fault
-- from the left decides the fault.
def Rule.parse (rule : Text) : Except RuleFault Rule :=
  ((Atom.ofText rule).splitOn (.plain '.')).mapM (Segment.ofAtoms rule)

end SpanTags
