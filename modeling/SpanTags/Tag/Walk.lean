import SpanTags.Tag.Basic
import SpanTags.Rule.RuleSet

namespace SpanTags

-- Decides along the keys of a payload what is tagged. `canTag` is asked about a key
-- before the entry is looked at, and told whether the entry is a scalar; `next` moves
-- into an entry that was admitted. An answer can fail with an `ε`.
structure Mask (ε : Type) where
  Cursor : Type
  head : Cursor
  canTag : Cursor → Text → Bool → Except ε Bool
  next : Cursor → Text → Cursor

def RuleSet.mask (set : RuleSet) : Mask Empty where
  Cursor := RuleCursor
  head := set.head
  canTag cursor key isLast := .ok (cursor.canTag key isLast)
  next := RuleCursor.next

-- Refuses some keys wherever they stand, and fails on others with the key itself.
def Mask.refusing (denied failing : List Text) : Mask Text where
  Cursor := Unit
  head := ()
  canTag _ key _ := if key ∈ failing then .error key else .ok (key ∉ denied)
  next _ _ := ()

-- How deep containers are followed, and how many tags there may be with the marker.
structure Limits where
  maxDepth : Int
  maxTags : Int

-- What happens on a walk through a payload. The keys lead from the root to the entry.
inductive Event
  | asked (keys : List Text) (isLast : Bool)
  | entered (keys : List Text)
  | emitted (path text : Text)
deriving DecidableEq

inductive WalkFault (ε : Type)
  | number (fault : TooManyDigits)
  | mask (fault : ε)
deriving DecidableEq

-- A walk so far: its events, the last one first, and how many tags may still be set.
-- Once a fault is there nothing happens any more.
structure Walk (ε : Type) where
  events : List Event
  left : Nat
  trimmed : Bool
  fault : Option (WalkFault ε)

namespace Walk

variable {ε : Type}

-- One of the tags is kept for the marker.
def start (limits : Limits) : Walk ε :=
  ⟨[], (limits.maxTags - 1).toNat, false, none⟩

def record (event : Event) (walk : Walk ε) : Walk ε :=
  { walk with events := event :: walk.events }

def fail (fault : WalkFault ε) (walk : Walk ε) : Walk ε :=
  { walk with fault := some fault }

def emit (path : Text) (walk : Walk ε) : Except TooManyDigits Text → Walk ε
  | .ok text => { walk.record (.emitted path text) with left := walk.left - 1 }
  | .error fault => walk.fail (.number fault)

-- Asks the mask about an entry and, if it is admitted, goes on inside.
def enter (mask : Mask ε) (cursor : mask.Cursor) (keys : List Text)
    (key : Except TooManyDigits Text) (isLast : Bool)
    (inside : List Text → mask.Cursor → Walk ε → Walk ε) (walk : Walk ε) : Walk ε :=
  match walk.fault, key with
  | some _, _ => walk
  | none, .error fault => walk.fail (.number fault)
  | none, .ok key =>
    let keys := keys ++ [key]
    let walk := walk.record (.asked keys isLast)
    match mask.canTag cursor key isLast with
    | .error fault => walk.fail (.mask fault)
    | .ok false => walk
    | .ok true => inside keys (mask.next cursor key) (walk.record (.entered keys))

variable (mask : Mask ε) (maxDepth : Int) (root : Text)

mutual

-- A visit that finds no tag left only notes that some are missing.
def visit (keys : List Text) (cursor : mask.Cursor) : Value → Walk ε → Walk ε
  | .scalar s, walk =>
    if walk.left = 0 then { walk with trimmed := true }
    else walk.emit (Tag.path root keys) (Tag.leafText (Tag.ownKey root keys) s)
  | .list items, walk =>
    if walk.left = 0 then { walk with trimmed := true }
    else if maxDepth ≤ keys.length then walk.emit (Tag.path root keys) (.ok Tag.truncated)
    else visitItems keys cursor 0 items walk
  | .tuple items, walk =>
    if walk.left = 0 then { walk with trimmed := true }
    else if maxDepth ≤ keys.length then walk.emit (Tag.path root keys) (.ok Tag.truncated)
    else visitItems keys cursor 0 items walk
  | .dict entries, walk =>
    if walk.left = 0 then { walk with trimmed := true }
    else if maxDepth ≤ keys.length then walk.emit (Tag.path root keys) (.ok Tag.truncated)
    else visitEntries keys cursor entries walk

def visitItems (keys : List Text) (cursor : mask.Cursor) (place : Nat) :
    List Value → Walk ε → Walk ε
  | [], walk => walk
  | v :: rest, walk =>
    visitItems keys cursor (place + 1) rest
      (walk.enter mask cursor keys (.ok (Text.ofNat place)) (!v.isContainer)
        (fun keys cursor walk => visit keys cursor v walk))

def visitEntries (keys : List Text) (cursor : mask.Cursor) :
    List (Key × Value) → Walk ε → Walk ε
  | [], walk => walk
  | (key, v) :: rest, walk =>
    visitEntries keys cursor rest
      (walk.enter mask cursor keys key.toText (!v.isContainer)
        (fun keys cursor walk => visit keys cursor v walk))

end

def run (limits : Limits) (v : Value) : Walk ε :=
  visit mask limits.maxDepth root [] mask.head v (start limits)

variable {mask maxDepth root}

def emissions (walk : Walk ε) : List (Text × Text) :=
  walk.events.reverse.filterMap fun
    | .emitted path text => some (path, text)
    | _ => none

-- The marker is set last.
def tags (walk : Walk ε) : Tags :=
  let set := Ordered.ofPairs (walk.emissions.map fun (path, text) => (path, TagValue.text text))
  if walk.trimmed then Ordered.put Tag.trimmedName .marker set else set

def result (walk : Walk ε) : Except (WalkFault ε) Tags :=
  match walk.fault with
  | some fault => .error fault
  | none => .ok walk.tags

end Walk

end SpanTags
