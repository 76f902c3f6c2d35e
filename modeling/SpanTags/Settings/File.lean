import SpanTags.Yaml.Item
import SpanTags.Field
import SpanTags.Ordered

namespace SpanTags

namespace Settings

inductive ShapeFault
  | noTable (typeName : Text)
  | noPairs (typeName : Text)
  | pairLength (place length : Nat)
  | noPair (place : Nat)
  | unhashable (typeName : Text)
  | unnamed
deriving DecidableEq

namespace ShapeFault

def kind : ShapeFault → Text
  | noTable _ => "AttributeError"
  | noPairs _ => "TypeError"
  | pairLength _ _ => "ValueError"
  | noPair _ => "TypeError"
  | unhashable _ => "TypeError"
  | unnamed => "TypeError"

def message : ShapeFault → Text
  | noTable typeName => "'" ++ typeName ++ "' object has no attribute 'get'"
  | noPairs typeName => "'" ++ typeName ++ "' object is not iterable"
  | pairLength place length =>
    "dictionary update sequence element #" ++ Text.ofNat place ++ " has length " ++
      Text.ofNat length ++ "; 2 is required"
  | noPair place =>
    "cannot convert dictionary update sequence element #" ++ Text.ofNat place ++
      " to a sequence"
  | unhashable typeName => "unhashable type: '" ++ typeName ++ "'"
  | unnamed => "keywords must be strings"

end ShapeFault

namespace File

open Yaml (Item Content)

variable (content : Content)

-- The entry of a table. What counts as nothing is a table without entries.
def entry (name : Text) (item : Item) : Except ShapeFault Item :=
  if item.isNothing then .ok .null
  else match item with
  | .dict entries =>
    .ok (content.resolve ((Ordered.get? (Item.text name) entries).getD .null))
  | _ => .error (.noTable item.typeName)

def members? : Item → Option (List Item)
  | .datum (.scalar (.text t)) => some (t.map fun c => .text [c])
  | .datum (.scalar (.bytes b)) => some (b.map fun n => .datum (.scalar (.int n.toNat)))
  | .list items => some items
  | .set members => some members
  | .dict entries => some (entries.map Prod.fst)
  | .pairs entries => some (entries.map fun _ => .null)
  | _ => none

def key (item : Item) : Except ShapeFault Item :=
  match content.resolve item with
  | .datum d => .ok (.datum d)
  | container => .error (.unhashable container.typeName)

def pair (place : Nat) (item : Item) : Except ShapeFault (Item × Item) :=
  match members? (content.resolve item) with
  | none => .error (.noPair place)
  | some [first, second] => do return (← key content first, second)
  | some members => .error (.pairLength place members.length)

def pairsFrom (place : Nat) : List Item → Except ShapeFault (List (Item × Item))
  | [] => .ok []
  | item :: rest => do
    let first ← pair content place item
    let others ← pairsFrom (place + 1) rest
    return first :: others

def entries (item : Item) : Except ShapeFault (List (Item × Item)) :=
  if item.isNothing then .ok []
  else match item with
  | .dict entries => .ok entries
  | .pairs entries =>
    entries.mapM fun (name, value) => do return (← key content name, value)
  | item =>
    match members? item with
    | some members => pairsFrom content 0 members
    | none => .error (.noPairs item.typeName)

def given (item : Item) : Given :=
  match content.resolve item with
  | .datum (.scalar s) => .scalar s
  | _ => .container

def named (entries : List (Item × Item)) : Except ShapeFault (List (Text × Given)) :=
  entries.mapM fun (name, value) =>
    match name with
    | .datum (.scalar (.text t)) => .ok (t, given content value)
    | _ => .error .unnamed

-- The fields that a document gives. A level under logging counts more than one among
-- the other fields.
def fields : Except ShapeFault (List (Text × Given)) := do
  let tagging ← entry content "payload_tagging" content.root
  let values ← entries content tagging
  let logging ← entry content "logging" content.root
  let level ← entry content "level" logging
  let values := Ordered.ofPairs values
  let values :=
    if level.isNothing then values else Ordered.put (Item.text "log_level") level values
  named content values

end File

end Settings

end SpanTags
