import SpanTags.Proofs.Rule.Grammar
import SpanTags.Proofs.Rule.Tree
import Mathlib.Data.List.Induction

namespace SpanTags

def Segment.key? : Segment → Option Text
  | .literal key => some key
  | .wildcard => none

-- The key with which a rule goes on after the segments of `way`, if it begins with them and
-- goes on with a literal.
def Rule.keyAfter? (way rule : Rule) : Option Text :=
  if way <+: rule then (rule.drop way.length).head?.bind Segment.key? else none

namespace RuleTree

variable {tree node : RuleTree} {rules : List Rule} {way : Rule}

-- The keys of the literal children, in the order of the children.
def keys (tree : RuleTree) : List Text :=
  tree.children.map Prod.fst

theorem keys_insert {names : List Text} (h : tree.keys = names.eraseDups) (rule : Rule) :
    (tree.insert rule).keys = (names ++ (rule.head?.bind Segment.key?).toList).eraseDups := by
  cases rule with
  | nil => simpa [keys, insert] using h
  | cons segment rest =>
      cases segment with
      | literal key => exact Ordered.map_fst_put_of_eq_eraseDups h key _
      | wildcard => simpa [keys, insert, Segment.key?] using h

theorem ofRules_concat (rules : List Rule) (rule : Rule) :
    ofRules (rules ++ [rule]) = (ofRules rules).insert rule := by
  simp only [ofRules, List.foldl_append, List.foldl_cons, List.foldl_nil]

-- Each rule adds its own key at each node on its way, after those of the rules before it.
theorem keys_follow_ofRules (rules : List Rule) (way : Rule) :
    (((ofRules rules).follow way).getD empty).keys =
      (rules.filterMap (Rule.keyAfter? way)).eraseDups := by
  induction rules using List.reverseRecOn with
  | nil =>
      cases way with
      | nil => rfl
      | cons segment rest =>
          rw [ofRules, List.foldl_nil, follow_empty_of_ne_nil (List.cons_ne_nil segment rest)]
          rfl
  | append_singleton rules rule ih =>
      rw [ofRules_concat, follow_insert, List.filterMap_append]
      by_cases hprefix : way <+: rule
      · have hkey : [rule].filterMap (Rule.keyAfter? way) =
            ((rule.drop way.length).head?.bind Segment.key?).toList := by
          rw [List.filterMap_cons, Rule.keyAfter?, if_pos hprefix]
          cases (rule.drop way.length).head?.bind Segment.key? <;> rfl
        rw [if_pos hprefix, Option.getD_some, keys_insert ih, hkey]
      · have hkey : [rule].filterMap (Rule.keyAfter? way) = [] := by
          simp [Rule.keyAfter?, hprefix]
        rw [if_neg hprefix, ih, hkey, List.append_nil]

-- What a node leads to are the rests of the rules that lead to the node.
theorem ends_of_follow (h : tree.follow way = some node) (rest : Rule) :
    node.Ends rest ↔ tree.Ends (way ++ rest) := by
  simp only [Ends, follow_append, h, Option.bind_some]

theorem isSome_edge_iff (h : (ofRules rules).follow way = some node) (segment : Segment) :
    (node.edge segment).isSome ↔ ∃ rest, way ++ segment :: rest ∈ rules := by
  have hedge : (node.edge segment).isSome ↔
      ((ofRules rules).follow (way ++ [segment])).isSome := by
    rw [follow_append, h, Option.bind_some, follow_cons]
    cases node.edge segment <;> simp
  rw [hedge, isSome_follow_ofRules_iff rules (by simp)]
  constructor
  · rintro ⟨rule, hrule, rest, rfl⟩
    exact ⟨rest, by simpa using hrule⟩
  · rintro ⟨rest, hrule⟩
    exact ⟨_, hrule, rest, by simp⟩

theorem exists_ends_of_follow (hne : way ≠ []) (h : (ofRules rules).follow way = some node) :
    ∃ rest, node.Ends rest := by
  obtain ⟨rule, hrule, rest, rfl⟩ :=
    (isSome_follow_ofRules_iff rules hne).mp (Option.isSome_iff_exists.mpr ⟨node, h⟩)
  exact ⟨rest, (ends_of_follow h rest).mpr ((ends_ofRules_iff rules _).mpr hrule)⟩

-- A tree that stands for the rules and for nothing else.
structure Represents (tree : RuleTree) (rules : List Rule) : Prop where
  ends_iff : ∀ way, tree.Ends way ↔ way ∈ rules
  root : tree.terminal = false
  -- there are no dead branches
  live : ∀ way node, way ≠ [] → tree.follow way = some node → ∃ rest, node.Ends rest
  -- a star that is meant literally and the wildcard are edges of their own
  star : ∀ way node, tree.follow way = some node →
    ((Ordered.get? ("*" : Text) node.children).isSome ↔
      ∃ rest, way ++ .literal "*" :: rest ∈ rules) ∧
    (node.wildcard.isSome ↔ ∃ rest, way ++ .wildcard :: rest ∈ rules)
  -- each key in the place where a rule went on with it first
  keys : ∀ way node, tree.follow way = some node →
    node.keys.Nodup ∧ node.keys = (rules.filterMap (Rule.keyAfter? way)).eraseDups

theorem represents_ofRules (hrules : [] ∉ rules) : (ofRules rules).Represents rules where
  ends_iff := ends_ofRules_iff rules
  root := by
    rw [← Bool.not_eq_true, ← ends_nil_iff, ends_ofRules_iff]
    exact hrules
  live := fun _ _ => exists_ends_of_follow
  star := fun _ _ h => ⟨isSome_edge_iff h (.literal "*"), isSome_edge_iff h .wildcard⟩
  keys := by
    intro way node h
    have hkeys := keys_follow_ofRules rules way
    rw [h, Option.getD_some] at hkeys
    exact ⟨hkeys ▸ Ordered.nodup_eraseDups _, hkeys⟩

end RuleTree

namespace RuleSet

variable {filter : Option Text} {set : RuleSet}

theorem mapM_parse_sources (h : ofOption filter = .ok set) :
    set.sources.mapM Rule.parse = .ok set.rules := by
  cases filter with
  | none =>
      obtain rfl := Except.ok.inj h
      rfl
  | some source =>
      cases parse_eq_ok_iff_reads.mp h with
      | blank => rfl
      | listed _ _ _ hrules =>
          exact mapM_eq_ok_iff.mpr (hrules.imp fun _ _ => Rule.parse_eq_ok_iff.mpr)

-- The tree stands for what the recorded texts are read as.
theorem represents_tree (h : ofOption filter = .ok set) :
    set.sources.mapM Rule.parse = .ok set.rules ∧ set.tree.Represents set.rules :=
  ⟨mapM_parse_sources h, RuleTree.represents_ofRules (nil_notMem_rules h)⟩

theorem represents_tree_stars :
    let set : RuleSet := ⟨["user.name", "\\*.id", "*.id.*", "user", "*.id", "user.age.days"],
      [[.literal "user", .literal "name"], [.literal "*", .literal "id"],
        [.wildcard, .literal "id", .wildcard], [.literal "user"], [.wildcard, .literal "id"],
        [.literal "user", .literal "age", .literal "days"]]⟩
    ofOption (some "user.name,\\*.id, *.id.*,user,*.id,user.age.days") = .ok set ∧
      set.tree.Ends [.literal "*", .literal "id"] ∧
      ¬set.tree.Ends [.literal "*", .literal "id", .wildcard] ∧
      set.tree.Ends [.wildcard, .literal "id"] ∧
      set.tree.keys = ["user", "*"] ∧ set.tree.wildcard.isSome ∧
      ∃ node, set.tree.follow [.literal "user"] = some node ∧ node.keys = ["name", "age"] ∧
        ∃ rest, node.Ends rest := by
  intro set
  have h : ofOption (some "user.name,\\*.id, *.id.*,user,*.id,user.age.days") = .ok set := rfl
  obtain ⟨-, hrep⟩ := represents_tree h
  have huser : set.tree.follow [.literal "user"] = some _ := rfl
  exact ⟨h, (hrep.ends_iff _).mpr (by decide), mt (hrep.ends_iff _).mp (by decide),
    (hrep.ends_iff _).mpr (by decide), (hrep.keys [] _ rfl).2,
    (hrep.star [] _ rfl).2.mpr ⟨[.literal "id"], by decide⟩,
    _, huser, (hrep.keys _ _ huser).2, hrep.live _ _ (List.cons_ne_nil _ _) huser⟩

end RuleSet

end SpanTags
