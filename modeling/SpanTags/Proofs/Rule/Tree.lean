import SpanTags.Proofs.Ordered
import SpanTags.Rule.RuleSet
import Mathlib.Data.List.Basic

namespace SpanTags.RuleTree

-- The child that a segment names: the one of a literal key, or the wildcard one.
def edge (tree : RuleTree) : Segment → Option RuleTree
  | .literal key => Ordered.get? key tree.children
  | .wildcard => tree.wildcard

-- The node to which the segments lead.
def follow (tree : RuleTree) : Rule → Option RuleTree
  | [] => some tree
  | segment :: rest => (tree.edge segment).bind fun child => child.follow rest

-- A rule ends at the node to which the segments lead.
def Ends (tree : RuleTree) (path : Rule) : Prop :=
  ∃ node, tree.follow path = some node ∧ node.terminal = true

@[simp] theorem follow_nil (tree : RuleTree) : tree.follow [] = some tree := rfl

theorem follow_cons (tree : RuleTree) (segment : Segment) (rest : Rule) :
    tree.follow (segment :: rest) = (tree.edge segment).bind fun child => child.follow rest := rfl

theorem follow_append (tree : RuleTree) (path rest : Rule) :
    tree.follow (path ++ rest) = (tree.follow path).bind fun node => node.follow rest := by
  induction path generalizing tree with
  | nil => rfl
  | cons segment path ih => simp only [List.cons_append, follow_cons, ih, Option.bind_assoc]

@[simp] theorem edge_empty (segment : Segment) : empty.edge segment = none := by
  cases segment <;> rfl

@[simp] theorem ends_nil_iff (tree : RuleTree) : tree.Ends [] ↔ tree.terminal = true := by
  simp [Ends]

theorem edge_insert (tree : RuleTree) (segment other : Segment) (rest : Rule) :
    (tree.insert (segment :: rest)).edge other =
      if segment = other then some (((tree.edge segment).getD empty).insert rest)
      else tree.edge other := by
  cases segment with
  | literal key =>
      cases other with
      | literal key' => simp [insert, edge, child, Ordered.get?_put]
      | wildcard => simp [insert, edge]
  | wildcard =>
      cases other with
      | literal key' => simp [insert, edge]
      | wildcard => simp [insert, edge]

theorem terminal_insert_cons (tree : RuleTree) (segment : Segment) (rest : Rule) :
    (tree.insert (segment :: rest)).terminal = tree.terminal := by
  cases segment <;> rfl

theorem edge_insert_nil (tree : RuleTree) (segment : Segment) :
    (tree.insert []).edge segment = tree.edge segment := by
  cases segment <;> rfl

theorem follow_empty_of_ne_nil {path : Rule} (hne : path ≠ []) : empty.follow path = none := by
  cases path with
  | nil => contradiction
  | cons segment rest => simp [follow_cons]

theorem follow_getD_edge (tree : RuleTree) (segment : Segment) {path : Rule} (hne : path ≠ []) :
    ((tree.edge segment).getD empty).follow path = tree.follow (segment :: path) := by
  rw [follow_cons]
  cases tree.edge segment with
  | none => exact follow_empty_of_ne_nil hne
  | some child => rfl

theorem getD_follow_getD_edge (tree : RuleTree) (segment : Segment) (path : Rule) :
    (((tree.edge segment).getD empty).follow path).getD empty =
      (tree.follow (segment :: path)).getD empty := by
  cases path with
  | nil => cases h : tree.edge segment <;> simp [follow_cons, h]
  | cons next rest => rw [follow_getD_edge tree segment (List.cons_ne_nil next rest)]

-- Insertion goes on at each node on the way of the rule and leaves all the others alone.
theorem follow_insert (tree : RuleTree) (rule path : Rule) :
    (tree.insert rule).follow path =
      if path <+: rule then
        some (((tree.follow path).getD empty).insert (rule.drop path.length))
      else tree.follow path := by
  induction path generalizing tree rule with
  | nil => simp
  | cons other path ih =>
      cases rule with
      | nil => simp [follow_cons, edge_insert_nil]
      | cons segment rest =>
          rw [follow_cons, edge_insert]
          by_cases hs : segment = other
          · subst other
            rw [if_pos rfl, Option.bind_some, ih, getD_follow_getD_edge]
            simp only [List.prefix_cons_inj, List.length_cons, List.drop_succ_cons]
            split
            · rfl
            · rename_i hnot
              exact follow_getD_edge tree segment fun hnil => hnot (hnil ▸ List.nil_prefix)
          · rw [if_neg hs, if_neg fun h => hs (List.cons_prefix_cons.mp h).1.symm, follow_cons]

theorem terminal_getD_follow_iff (tree : RuleTree) (path : Rule) :
    ((tree.follow path).getD empty).terminal = true ↔ tree.Ends path := by
  cases h : tree.follow path with
  | none => simp [Ends, h, empty]
  | some node => simp [Ends, h]

-- Insertion adds the end of the rule and keeps those that are there.
theorem ends_insert_iff (tree : RuleTree) (rule path : Rule) :
    (tree.insert rule).Ends path ↔ tree.Ends path ∨ path = rule := by
  rw [← terminal_getD_follow_iff, ← terminal_getD_follow_iff, follow_insert]
  split
  · rename_i hprefix
    obtain ⟨rest, rfl⟩ := hprefix
    rw [List.drop_left]
    cases rest with
    | nil => simp [insert]
    | cons segment rest => simp [terminal_insert_cons]
  · rename_i hprefix
    have hne : path ≠ rule := fun heq => hprefix (heq ▸ List.prefix_rfl)
    exact (or_iff_left hne).symm

-- Insertion adds the nodes on the way to the end of the rule and no others.
theorem isSome_follow_insert_iff (tree : RuleTree) (rule path : Rule) :
    ((tree.insert rule).follow path).isSome ↔ (tree.follow path).isSome ∨ path <+: rule := by
  rw [follow_insert]
  split <;> simp [*]

theorem ends_foldl_insert_iff (rules : List Rule) (tree : RuleTree) (path : Rule) :
    (rules.foldl insert tree).Ends path ↔ tree.Ends path ∨ path ∈ rules := by
  induction rules generalizing tree with
  | nil => simp
  | cons rule rest ih => rw [List.foldl_cons, ih, ends_insert_iff, List.mem_cons, or_assoc]

theorem isSome_follow_foldl_insert_iff (rules : List Rule) (tree : RuleTree) (path : Rule) :
    ((rules.foldl insert tree).follow path).isSome ↔
      (tree.follow path).isSome ∨ ∃ rule ∈ rules, path <+: rule := by
  induction rules generalizing tree with
  | nil => simp
  | cons rule rest ih =>
      rw [List.foldl_cons, ih, isSome_follow_insert_iff, List.exists_mem_cons_iff, or_assoc]

-- The rules of a tree end where they say and nowhere else.
theorem ends_ofRules_iff (rules : List Rule) (path : Rule) :
    (ofRules rules).Ends path ↔ path ∈ rules := by
  have hempty : ¬empty.Ends path := by
    cases path with
    | nil => simp [empty]
    | cons segment path => simp [Ends, follow_cons]
  rw [ofRules, ends_foldl_insert_iff, or_iff_right hempty]

-- Each node but the root lies on the way to the end of a rule.
theorem isSome_follow_ofRules_iff (rules : List Rule) {path : Rule} (hne : path ≠ []) :
    ((ofRules rules).follow path).isSome ↔ ∃ rule ∈ rules, path <+: rule := by
  have hempty : ¬(empty.follow path).isSome := by
    rw [follow_empty_of_ne_nil hne]
    exact Bool.false_ne_true
  rw [ofRules, isSome_follow_foldl_insert_iff, or_iff_right hempty]

end SpanTags.RuleTree
