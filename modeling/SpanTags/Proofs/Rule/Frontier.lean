import SpanTags.Proofs.Rule.Parsing
import SpanTags.Proofs.Rule.Tree
import Mathlib.Data.List.Induction
import Mathlib.Data.List.Nodup
import Mathlib.Data.List.Perm.Subperm

namespace SpanTags

namespace Rule

-- One key further on a way: by the key itself or by the wildcard.
def onward (key : Text) (way : Rule) : List Rule :=
  [way ++ [.literal key], way ++ [.wildcard]]

-- The ways that fit the keys of a path, in the order in which a cursor goes them.
def ways (path : List Text) : List Rule :=
  path.foldl (fun ways key => ways.flatMap (onward key)) [[]]

theorem ways_concat (path : List Text) (key : Text) :
    ways (path ++ [key]) = (ways path).flatMap (onward key) := by
  simp only [ways, List.foldl_append, List.foldl_cons, List.foldl_nil]

theorem mem_onward_iff {key : Text} {way other : Rule} :
    other ∈ onward key way ↔ other = way ++ [.literal key] ∨ other = way ++ [.wildcard] := by
  simp [onward]

theorem length_of_mem_ways {path : List Text} : ∀ way ∈ ways path, way.length = path.length := by
  induction path using List.reverseRecOn with
  | nil => simp [ways]
  | append_singleton path key ih =>
      intro way hway
      rw [ways_concat, List.mem_flatMap] at hway
      obtain ⟨front, hfront, hway⟩ := hway
      rcases mem_onward_iff.mp hway with rfl | rfl <;> simp [ih front hfront]

-- Ways that part once never meet again.
theorem nodup_ways (path : List Text) : (ways path).Nodup := by
  induction path using List.reverseRecOn with
  | nil => simp [ways]
  | append_singleton path key ih =>
      rw [ways_concat, List.nodup_flatMap]
      refine ⟨fun way _ => by simp [onward], ih.imp ?_⟩
      intro way other hne further hway hother
      have hfront {first : Rule} (h : further ∈ onward key first) : further.dropLast = first := by
        rcases mem_onward_iff.mp h with rfl | rfl <;> exact List.dropLast_concat
      exact hne ((hfront hway).symm.trans (hfront hother))

end Rule

namespace RuleTree

variable {rules : List Rule} (tree : RuleTree)

-- The ways of a path that the tree has.
def places (path : List Text) : List Rule :=
  (Rule.ways path).filter fun way => (tree.follow way).isSome

theorem filterMap_follow_onward (key : Text) (way : Rule) :
    (Rule.onward key way).filterMap tree.follow = (tree.follow way).toList.flatMap (step key) := by
  simp only [Rule.onward, List.filterMap_cons, List.filterMap_nil, follow_append, follow_cons,
    follow_nil]
  cases tree.follow way with
  | none => rfl
  | some node =>
      simp only [Option.bind_some, Option.toList_some, List.flatMap_cons, List.flatMap_nil,
        List.append_nil, step, edge]
      cases Ordered.get? key node.children <;> cases node.wildcard <;> rfl

-- A step from the nodes of some ways leads to the nodes of the ways that go on from them.
theorem flatMap_step_filterMap_follow (key : Text) (ways : List Rule) :
    (ways.filterMap tree.follow).flatMap (step key) =
      (ways.flatMap (Rule.onward key)).filterMap tree.follow := by
  induction ways with
  | nil => rfl
  | cons way rest ih =>
      rw [List.flatMap_cons, List.filterMap_append, filterMap_follow_onward, ← ih,
        List.filterMap_cons]
      cases tree.follow way with
      | none => rfl
      | some node => simp

-- The nodes are those of the ways, one for each.
theorem forall₂_filterMap_follow (ways : List Rule) :
    List.Forall₂ (fun way node => tree.follow way = some node)
      (ways.filter fun way => (tree.follow way).isSome) (ways.filterMap tree.follow) := by
  induction ways with
  | nil => exact .nil
  | cons way rest ih =>
      cases h : tree.follow way with
      | none => simpa [h] using ih
      | some node => simpa [h] using ih

variable {tree}

theorem length_of_mem_places {path : List Text} :
    ∀ way ∈ tree.places path, way.length = path.length :=
  fun way hway => Rule.length_of_mem_ways way (List.mem_of_mem_filter hway)

theorem nodup_places (path : List Text) : (tree.places path).Nodup :=
  (Rule.nodup_ways path).filter _

-- Each rule goes one way, so it leads to one place below the root at most.
theorem length_places_le (rules : List Rule) {path : List Text} (hne : path ≠ []) :
    ((ofRules rules).places path).length ≤ rules.length := by
  have hsub : (ofRules rules).places path ⊆ rules.map (List.take path.length) := by
    intro way hway
    have hlen := length_of_mem_places way hway
    have hway' : way ≠ [] := by
      rintro rfl
      exact hne (List.length_eq_zero_iff.mp hlen.symm)
    obtain ⟨rule, hrule, hprefix⟩ :=
      (isSome_follow_ofRules_iff rules hway').mp (List.mem_filter.mp hway).2
    rw [List.prefix_iff_eq_take.mp hprefix, hlen]
    exact List.mem_map_of_mem hrule
  simpa using (nodup_places path).length_le_of_subset hsub

end RuleTree

namespace RuleCursor

-- A cursor stands at the places of the keys that it was moved along, until a rule has matched
-- in full.
theorem exists_nodes_foldl_next (tree : RuleTree) (path : List Text) :
    ∃ front, front <+: path ∧
      ((path.foldl next (head tree)).includesAll = false → front = path) ∧
      (path.foldl next (head tree)).nodes = (Rule.ways front).filterMap tree.follow := by
  induction path using List.reverseRecOn with
  | nil => exact ⟨[], List.prefix_rfl, fun _ => rfl, rfl⟩
  | append_singleton path key ih =>
      obtain ⟨front, hprefix, hfront, hnodes⟩ := ih
      rw [List.foldl_append, List.foldl_cons, List.foldl_nil, next]
      split
      · rename_i hall
        exact ⟨front, hprefix.trans (List.prefix_append _ _), by simp [hall], hnodes⟩
      · rename_i hall
        obtain rfl := hfront (eq_false_of_ne_true hall)
        refine ⟨front ++ [key], List.prefix_rfl, fun _ => rfl, ?_⟩
        rw [matched, hnodes, RuleTree.flatMap_step_filterMap_follow, Rule.ways_concat]

end RuleCursor

namespace RuleSet

-- A node is told from the others by the way that leads to it. A cursor has the nodes of its
-- places, one for each: they are all as deep as the keys that they stand for, and there are
-- never more of them than rules.
theorem nodes_foldl_next (set : RuleSet) (path : List Text) :
    let cursor := path.foldl RuleCursor.next set.head
    ∃ front, front <+: path ∧ (cursor.includesAll = false → front = path) ∧
      List.Forall₂ (fun way node => set.tree.follow way = some node)
        (set.tree.places front) cursor.nodes ∧
      (set.tree.places front).Nodup ∧
      (∀ way ∈ set.tree.places front, way.length = front.length) ∧
      cursor.nodes.length ≤ max 1 set.rules.length := by
  intro cursor
  obtain ⟨front, hprefix, hfront, hnodes⟩ := RuleCursor.exists_nodes_foldl_next set.tree path
  have hplaces : List.Forall₂ (fun way node => set.tree.follow way = some node)
      (set.tree.places front) cursor.nodes := by
    show List.Forall₂ _ _ (path.foldl RuleCursor.next (RuleCursor.head set.tree)).nodes
    rw [hnodes]
    exact RuleTree.forall₂_filterMap_follow set.tree _
  refine ⟨front, hprefix, hfront, hplaces, RuleTree.nodup_places front,
    RuleTree.length_of_mem_places, ?_⟩
  rw [← hplaces.length_eq]
  by_cases hne : front = []
  · subst hne
    exact Nat.le_trans (List.length_filter_le _ _) (Nat.le_max_left _ _)
  · exact Nat.le_trans (RuleTree.length_places_le set.rules hne) (Nat.le_max_right _ _)

-- Each of these rules has a node of its own after two keys.
example : (List.foldl RuleCursor.next (RuleSet.head ⟨[], [[.literal "a", .literal "b"],
    [.wildcard, .wildcard], [.literal "a", .wildcard], [.wildcard, .literal "b"]]⟩)
      ["a", "b"]).nodes.length = 4 := rfl

end RuleSet

end SpanTags
