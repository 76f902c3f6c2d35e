import SpanTags.Yaml.Lexer
import SpanTags.Yaml.Tag

namespace SpanTags

namespace Yaml

-- The nodes of a document. An alias stands for the node of its name, possibly for one
-- that it lies in.
inductive Node
  | scalar (tag : Tag) (text : Text)
  | sequence (tag : Tag) (items : List Node)
  | mapping (tag : Tag) (entries : List (Node × Node))
  | alias (name : Text)

-- A document without any text has no root.
structure Document where
  root : Option Node
  anchors : List (Text × Node)

namespace Node

instance : Inhabited Node := ⟨.scalar .null []⟩

def empty : Node := .scalar .null []

-- What is still to be read, the names of the anchors so far, and the nodes of those
-- that are complete.
structure Reading where
  tokens : List Token
  names : List Text
  anchors : List (Text × Node)

abbrev Parse := StateT Reading (Except Fault)

-- A fault of the text itself counts where the text ends with it.
def fail {α : Type} : Parse α := do
  match (← get).tokens with
  | [.broken fault] => throw fault
  | _ => throw .malformed

def peek : Parse (Option Token) := do
  return (← get).tokens.head?

def advance : Parse Unit :=
  modify fun r => { r with tokens := r.tokens.drop 1 }

def nextIsOneOf (tokens : List Token) : Parse Bool := do
  return (← peek).any tokens.contains

def accept (token : Token) : Parse Bool := do
  let found ← nextIsOneOf [token]
  if found then advance
  return found

def expect (token : Token) : Parse Unit := do
  if !(← accept token) then fail

structure Properties where
  anchor : Option Text
  tag : Option (Option Text × Text)

def acceptAnchor : Parse (Option Text) := do
  match ← peek with
  | some (.anchor name) => do
    advance
    return some name
  | _ => return none

def acceptTag : Parse (Option (Option Text × Text)) := do
  match ← peek with
  | some (.tag handle suffix) => do
    advance
    return some (handle, suffix)
  | _ => return none

def properties : Parse Properties := do
  match ← acceptAnchor with
  | some name => return ⟨some name, ← acceptTag⟩
  | none =>
    match ← acceptTag with
    | some tag => return ⟨← acceptAnchor, some tag⟩
    | none => return ⟨none, none⟩

abbrev Handles := List (Text × Text)

-- The full name of a tag. A lone exclamation mark asks for the sort that the node would
-- have without quotes.
def tagName (handles : Handles) : Option (Option Text × Text) → Parse (Option Text)
  | none => return none
  | some (none, suffix) => return some suffix
  | some (some handle, suffix) =>
    match handles.lookup handle with
    | some lead => return some (lead ++ suffix)
    | none => fail

def isOpen (name : Option Text) : Bool :=
  name.all (· = ("!" : Text))

def scalarTag (name : Option Text) (text : Text) (plain : Bool) : Tag :=
  match name with
  | none => if plain then .ofPlain text else .text
  | some name => if name = ("!" : Text) then .ofPlain text else .ofName name

def collectionTag (name : Option Text) (default : Tag) : Tag :=
  if isOpen name then default else .ofName (name.getD [])

def declare (anchor : Option Text) : Parse Unit := do
  match anchor with
  | none => return
  | some name =>
    if (← get).names.contains name then fail
    modify fun r => { r with names := name :: r.names }

def complete (anchor : Option Text) (node : Node) : Parse Node := do
  match anchor with
  | none => return node
  | some name =>
    modify fun r => { r with anchors := (name, node) :: r.anchors }
    return node

-- The mapping that is merged in for a node, if it can be: an alias counts as the node of
-- its name, which has nothing to give while it is still being read.
def mergeSource? (anchors : List (Text × Node)) : Node → Option (List (Node × Node))
  | .mapping _ entries => some entries
  | .alias name =>
    match anchors.lookup name with
    | some (.mapping _ entries) => some entries
    | some _ => none
    | none => some []
  | _ => none

-- Of several mappings that are merged at once the first one counts most.
def mergeSources? (anchors : List (Text × Node)) (node : Node) : Option (List (Node × Node)) :=
  let node := match node with
    | .alias name => (anchors.lookup name).getD node
    | _ => node
  match node with
  | .sequence _ items => do
    let sources ← items.mapM (mergeSource? anchors)
    return sources.reverse.flatten
  | _ => mergeSource? anchors node

def isMergeKey : Node → Bool
  | .scalar tag _ => tag = .merge
  | .sequence tag _ => tag = .merge
  | .mapping tag _ => tag = .merge
  | .alias _ => false

-- As a key an equals sign is a text.
def asKey : Node → Node
  | .scalar .value text => .scalar .text text
  | node => node

-- The entries with those that their merge keys bring in. These stand in front, so that
-- a mapping's own entries count more.
def mergeEntries (entries : List (Node × Node)) : Parse (List (Node × Node)) := do
  let anchors := (← get).anchors
  let own := entries.filter fun (key, _) => !isMergeKey key
  let merged := entries.filter fun (key, _) => isMergeKey key
  match merged.mapM fun (_, value) => mergeSources? anchors value with
  | some sources => return sources.flatten ++ own.map fun (key, value) => (asKey key, value)
  | none => fail

def completeMapping (anchor name : Option Text) (entries : List (Node × Node)) : Parse Node := do
  let tag := collectionTag name .mapping
  if tag = .mapping || tag = .set then
    complete anchor (.mapping tag (← mergeEntries entries))
  else complete anchor (.mapping tag entries)

mutual

-- A node. Blocks may begin here only if `inBlock` is set, and a sequence without
-- indentation of its own only if `indentless` is set.
def parse (handles : Handles) (inBlock indentless : Bool) : Nat → Parse Node
  | 0 => fail
  | fuel + 1 => do
    if let some (.alias name) ← peek then
      if !(← get).names.contains name then fail
      advance
      return .alias name
    let given ← properties
    let name ← tagName handles given.tag
    declare given.anchor
    if ← pure indentless <&&> nextIsOneOf [.blockEntry] then
      let items ← indentlessItems handles fuel
      return ← complete given.anchor (.sequence (collectionTag name .sequence) items)
    match ← peek with
    | some (.scalar text plain) =>
      advance
      complete given.anchor (.scalar (scalarTag name text plain) text)
    | some .flowSequenceStart =>
      advance
      let items ← flowItems handles true fuel
      complete given.anchor (.sequence (collectionTag name .sequence) items)
    | some .flowMappingStart =>
      advance
      let entries ← flowEntries handles true fuel
      completeMapping given.anchor name entries
    | some .blockSequenceStart =>
      if !inBlock then fail
      advance
      let items ← blockItems handles fuel
      complete given.anchor (.sequence (collectionTag name .sequence) items)
    | some .blockMappingStart =>
      if !inBlock then fail
      advance
      let entries ← blockEntries handles fuel
      completeMapping given.anchor name entries
    | _ =>
      if given.anchor.isNone && name.isNone then fail
      complete given.anchor (.scalar (scalarTag name [] true) [])

def parseUnless (handles : Handles) (inBlock indentless : Bool) (ends : List Token) :
    Nat → Parse Node
  | 0 => fail
  | fuel + 1 => do
    if ← nextIsOneOf ends then return empty
    parse handles inBlock indentless fuel

def parseValue (handles : Handles) (inBlock : Bool) (ends : List Token) : Nat → Parse Node
  | 0 => fail
  | fuel + 1 => do
    if ← accept .value then parseUnless handles inBlock inBlock ends fuel
    else return empty

def blockItems (handles : Handles) : Nat → Parse (List Node)
  | 0 => fail
  | fuel + 1 => do
    if ← accept .blockEntry then
      let item ← parseUnless handles true false [.blockEntry, .blockEnd] fuel
      let others ← blockItems handles fuel
      return item :: others
    expect .blockEnd
    return []

def indentlessItems (handles : Handles) : Nat → Parse (List Node)
  | 0 => fail
  | fuel + 1 => do
    if ← accept .blockEntry then
      let item ← parseUnless handles true false [.blockEntry, .key, .value, .blockEnd] fuel
      let others ← indentlessItems handles fuel
      return item :: others
    return []

def blockEntries (handles : Handles) : Nat → Parse (List (Node × Node))
  | 0 => fail
  | fuel + 1 => do
    let ends : List Token := [.key, .value, .blockEnd]
    if ← accept .key then
      let key ← parseUnless handles true true ends fuel
      let value ← parseValue handles true ends fuel
      let others ← blockEntries handles fuel
      return (key, value) :: others
    expect .blockEnd
    return []

-- Brackets may hold pairs too, each a mapping of its own.
def flowItems (handles : Handles) (isFirst : Bool) : Nat → Parse (List Node)
  | 0 => fail
  | fuel + 1 => do
    if ← accept .flowSequenceEnd then return []
    if !isFirst then expect .flowEntry
    if ← accept .key then
      let ends : List Token := [.flowEntry, .flowSequenceEnd]
      let key ← parseUnless handles false false (.value :: ends) fuel
      let value ← parseValue handles false ends fuel
      let others ← flowItems handles false fuel
      return .mapping .mapping (← mergeEntries [(key, value)]) :: others
    if ← accept .flowSequenceEnd then return []
    let item ← parse handles false false fuel
    let others ← flowItems handles false fuel
    return item :: others

def flowEntries (handles : Handles) (isFirst : Bool) : Nat → Parse (List (Node × Node))
  | 0 => fail
  | fuel + 1 => do
    if ← accept .flowMappingEnd then return []
    if !isFirst then expect .flowEntry
    if ← accept .key then
      let ends : List Token := [.flowEntry, .flowMappingEnd]
      let key ← parseUnless handles false false (.value :: ends) fuel
      let value ← parseValue handles false ends fuel
      let others ← flowEntries handles false fuel
      return (key, value) :: others
    if ← accept .flowMappingEnd then return []
    let key ← parse handles false false fuel
    let others ← flowEntries handles false fuel
    return (key, empty) :: others

end

def defaultHandles : Handles := [("!", "!"), ("!!", Tag.standard)]

-- The directives before a document: at most one version, which must be 1, and at most
-- one meaning for each handle.
def directives : Bool → Handles → List Token → Parse Handles
  | hasVersion, handles, .directive d :: rest => do
    advance
    match d with
    | .version major =>
      if hasVersion || major ≠ 1 then fail
      directives true handles rest
    | .handle name lead =>
      if (handles.lookup name).isSome then fail
      directives hasVersion ((name, lead) :: handles) rest
    | .other => directives hasVersion handles rest
  | _, handles, _ => return handles

-- The root of a document. Only a document with a start mark can be empty.
def parseRoot (fuel : Nat) : Parse Node := do
  match ← peek with
  | some (.directive _) | some .documentStart =>
    let handles ← directives false [] (← get).tokens
    expect .documentStart
    match ← peek with
    | none | some (.directive _) | some .documentStart | some .documentEnd => return empty
    | _ => parse (handles ++ defaultHandles) true false fuel
  | _ => parse defaultHandles true false fuel

-- Every token makes at most two nested calls necessary.
def parseDocument : Parse (Option Node) := do
  let tokens := (← get).tokens
  if tokens.isEmpty then return none
  let root ← parseRoot (3 * tokens.length + 3)
  modify fun r => { r with tokens := r.tokens.dropWhile (· = .documentEnd) }
  if (← peek).isSome then fail
  return some root

end Node

-- A text holds one document at most.
def Document.ofText (text : Text) : Except Fault Document := do
  let (root, reading) ← Node.parseDocument.run ⟨Token.ofText text, [], []⟩
  return ⟨root, reading.anchors⟩

end Yaml

end SpanTags
