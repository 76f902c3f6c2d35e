import SpanTags.Yaml.Node
import SpanTags.Yaml.Scalar
import SpanTags.Ordered

namespace SpanTags

namespace Yaml

-- What a node stands for. An alias stays one, since it may lead back to where it stands.
inductive Item
  | datum (d : Datum)
  | list (items : List Item)
  | dict (entries : List (Item × Item))
  | set (members : List Item)
  | pairs (entries : List (Item × Item))
  | alias (name : Text)

namespace Item

instance : Inhabited Item := ⟨.datum (.scalar .null)⟩

def null : Item := .datum (.scalar .null)

def text (t : Text) : Item := .datum (.scalar (.text t))

-- Whether two keys are the same one. Containers are no keys.
def sameKey : Item → Item → Bool
  | .datum (.scalar a), .datum (.scalar b) => a.same b
  | .datum (.day a), .datum (.day b) => a = b
  | .datum (.moment a), .datum (.moment b) => a = b
  | _, _ => false

instance : BEq Item := ⟨sameKey⟩

def typeName : Item → Text
  | .datum (.scalar s) => s.typeName
  | .datum (.day _) => "datetime.date"
  | .datum (.moment _) => "datetime.datetime"
  | .list _ => "list"
  | .dict _ => "dict"
  | .set _ => "set"
  | .pairs _ => "list"
  | .alias _ => "NoneType"

def isNothing : Item → Bool
  | .datum (.scalar .null) => true
  | .datum (.scalar (.bool b)) => !b
  | .datum (.scalar (.int n)) => n = 0
  | .datum (.scalar (.float x)) => x.toInt? = some 0
  | .datum (.scalar (.text t)) => t.isEmpty
  | .datum (.scalar (.bytes b)) => b.isEmpty
  | .list items => items.isEmpty
  | .dict entries => entries.isEmpty
  | .set members => members.isEmpty
  | .pairs entries => entries.isEmpty
  | _ => false

end Item

namespace Node

-- The text of a node whose tag wants one. A mapping can give it under an equals sign.
def text? : Node → Option Text
  | .scalar _ t => some t
  | .mapping _ entries => textUnder? entries
  | _ => none
where
  textUnder? : List (Node × Node) → Option Text
  | [] => none
  | (.scalar .value _, value) :: _ => text? value
  | _ :: rest => textUnder? rest

-- A fault with the depth at which it is found.
abbrev Depths := List (Nat × Fault)

def datumFaults (depth : Nat) (tag : Tag) (text : Option Text) : Depths :=
  match text with
  | none => [(depth, .malformed)]
  | some t =>
    match Datum.ofText tag t with
    | .ok _ => []
    | .error fault => [(depth, fault)]

-- The nodes that are no key, since a table cannot hold them.
def isContainer (anchors : List (Text × Node)) (node : Node) : Bool :=
  let node := match node with
    | .alias name => (anchors.lookup name).getD node
    | _ => node
  match node with
  | .scalar _ _ => false
  | .sequence tag _ => tag = .sequence || tag = .orderedMap || tag = .pairs
  | .mapping tag _ => tag = .mapping || tag = .set
  | .alias _ => true

variable (anchors : List (Text × Node))

mutual

-- The faults of a node and of what it holds. A container is looked into only after all
-- that stands at its own depth.
def faults (depth : Nat) : Node → Depths
  | .alias _ => []
  | .scalar tag t => datumFaults depth tag (some t)
  | .sequence tag items =>
    if tag = .sequence then itemFaults (depth + 1) items
    else if tag = .orderedMap || tag = .pairs then pairFaults (depth + 1) items
    else [(depth, .malformed)]
  | .mapping tag entries =>
    if tag = .mapping || tag = .set then entryFaults (depth + 1) entries
    else datumFaults depth tag (Node.mapping tag entries).text?

def itemFaults (depth : Nat) : List Node → Depths
  | [] => []
  | item :: rest => faults depth item ++ itemFaults depth rest

def entryFaults (depth : Nat) : List (Node × Node) → Depths
  | [] => []
  | (key, value) :: rest =>
    faults depth key ++ (if isContainer anchors key then [(depth, .malformed)] else []) ++
      faults depth value ++ entryFaults depth rest

def pairFaults (depth : Nat) : List Node → Depths
  | [] => []
  | .mapping _ [(key, value)] :: rest =>
    faults depth key ++ faults depth value ++ pairFaults depth rest
  | _ :: _ => [(depth, .malformed)]

end

-- Of all faults the one at the least depth counts, and of those the first.
def firstFault? (found : Depths) : Option Fault :=
  (found.foldl (fun best next => match best with
    | none => some next
    | some (depth, _) => if next.1 < depth then some next else best) none).map Prod.snd

def datum (tag : Tag) (text : Option Text) : Item :=
  match Datum.ofText tag (text.getD []) with
  | .ok d => .datum d
  | .error _ => .null

-- An alias that is a key must stand for a scalar, so it is resolved at once.
def keyOf : Item → Item
  | .alias name =>
    match anchors.lookup name with
    | some (.scalar tag t) => datum tag (some t)
    | some (.mapping tag entries) => datum tag (Node.mapping tag entries).text?
    | _ => .null
  | item => item

mutual

def item : Node → Item
  | .alias name => .alias name
  | .scalar tag t => datum tag (some t)
  | .sequence tag items => if tag = .sequence then .list (itemList items) else .pairs (pairList items)
  | .mapping tag entries =>
    if tag = .mapping then .dict (Ordered.ofPairs (entryList entries))
    else if tag = .set then .set ((Ordered.ofPairs (entryList entries)).map Prod.fst)
    else datum tag (Node.mapping tag entries).text?

def itemList : List Node → List Item
  | [] => []
  | node :: rest => item node :: itemList rest

def entryList : List (Node × Node) → List (Item × Item)
  | [] => []
  | (key, value) :: rest => (keyOf anchors (item key), item value) :: entryList rest

def pairList : List Node → List (Item × Item)
  | [] => []
  | .mapping _ [(key, value)] :: rest => (item key, item value) :: pairList rest
  | _ :: rest => pairList rest

end

end Node

structure Content where
  root : Item
  anchors : List (Text × Item)

def Document.content (document : Document) : Except Fault Content :=
  match document.root with
  | none => .ok ⟨.null, []⟩
  | some root =>
    match Node.firstFault? (Node.faults document.anchors 0 root) with
    | some fault => .error fault
    | none =>
      let item := Node.item document.anchors
      .ok ⟨item root, document.anchors.map fun (name, node) => (name, item node)⟩

def Content.ofText (text : Text) : Except Fault Content := do
  (← Document.ofText text).content

def Content.resolve (content : Content) : Item → Item
  | .alias name => (content.anchors.lookup name).getD .null
  | item => item

end Yaml

end SpanTags
