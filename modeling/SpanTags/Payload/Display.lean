import SpanTags.Payload.Basic
import SpanTags.Number.Layout
import SpanTags.Text.Quoted

namespace SpanTags

namespace Scalar

-- The text of a scalar as it stands inside a larger value, texts in quotes.
def display : Scalar → Except TooManyDigits Text
  | null => .ok "None"
  | bool b => .ok (if b then "True" else "False")
  | int n => writeWhole n
  | float x => .ok x.text
  | text t => .ok t.quoted
  | bytes b => .ok (Text.quotedBytes b)

def toText : Scalar → Except TooManyDigits Text
  | text t => .ok t
  | s => s.display

end Scalar

namespace Key

mutual

def display : Key → Except TooManyDigits Text
  | scalar s => s.display
  | tuple items => do
    let shown ← displayAll items
    let inner : Text := match shown with
      | [one] => one ++ ","
      | many => Text.join ", " many
    return "(" ++ inner ++ ")"

def displayAll : List Key → Except TooManyDigits (List Text)
  | [] => .ok []
  | k :: rest => do
    let first ← k.display
    let others ← displayAll rest
    return first :: others

end

def toText : Key → Except TooManyDigits Text
  | scalar s => s.toText
  | tuple items => (tuple items).display

end Key

end SpanTags
