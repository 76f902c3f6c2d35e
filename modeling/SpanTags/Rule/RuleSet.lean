import SpanTags.Rule.Basic
import SpanTags.Ordered

namespace SpanTags

-- Rules that share their first segments share the nodes on the way. A node is terminal
-- if a rule ends there; its literal children stand in the order of their creation.
structure RuleTree where
  terminal : Bool
  children : List (Text × RuleTree)
  wildcard : Option RuleTree

namespace RuleTree

def empty : RuleTree := ⟨false, [], none⟩

def child (tree : RuleTree) (key : Text) : RuleTree :=
  (Ordered.get? key tree.children).getD empty

def insert (tree : RuleTree) : Rule → RuleTree
  | [] => { tree with terminal := true }
  | .literal key :: rest =>
    { tree with children := Ordered.put key ((tree.child key).insert rest) tree.children }
  | .wildcard :: rest =>
    { tree with wildcard := some ((tree.wildcard.getD empty).insert rest) }

def ofRules (rules : List Rule) : RuleTree :=
  rules.foldl insert empty

def step (key : Text) (tree : RuleTree) : List RuleTree :=
  (Ordered.get? key tree.children).toList ++ tree.wildcard.toList

end RuleTree

-- How far the rules agree with a path. Once a rule has matched in full, everything
-- below is included.
structure RuleCursor where
  nodes : List RuleTree
  includesAll : Bool

namespace RuleCursor

def head (tree : RuleTree) : RuleCursor := ⟨[tree], false⟩

def matched (cursor : RuleCursor) (key : Text) : List RuleTree :=
  cursor.nodes.flatMap (RuleTree.step key)

-- A scalar is not tagged for a rule that still expects further keys.
def canTag (cursor : RuleCursor) (key : Text) (isLast : Bool) : Bool :=
  let found := cursor.matched key
  cursor.includesAll || found.any (·.terminal) || (!isLast && !found.isEmpty)

def next (cursor : RuleCursor) (key : Text) : RuleCursor :=
  if cursor.includesAll then cursor
  else
    let found := cursor.matched key
    ⟨found, found.any (·.terminal)⟩

end RuleCursor

structure RuleSet where
  sources : List Text
  rules : List Rule

namespace RuleSet

def empty : RuleSet := ⟨[], []⟩

-- Blanks around a rule do not belong to it.
def readRule (source piece : Text) : Except RuleFault (Text × Rule) := do
  let rule := piece.strip
  if rule = [] then throw (.emptyRule source)
  return (rule, ← Rule.parse rule)

-- A source of blanks alone has no rules; any other has one rule per piece.
def parse (source : Text) : Except RuleFault RuleSet :=
  if source.strip = [] then .ok empty
  else do
    let pairs ← (splitRules source).mapM (readRule source)
    return ⟨pairs.map Prod.fst, pairs.map Prod.snd⟩

def ofOption : Option Text → Except RuleFault RuleSet
  | none => .ok empty
  | some source => parse source

def tree (set : RuleSet) : RuleTree :=
  RuleTree.ofRules set.rules

def head (set : RuleSet) : RuleCursor :=
  RuleCursor.head set.tree

def source (set : RuleSet) : Text :=
  Text.join "," set.sources

def display (set : RuleSet) : Text :=
  "GlobMask(" ++ set.source.quoted ++ ")"

end RuleSet

end SpanTags
