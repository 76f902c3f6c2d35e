import SpanTags.Proofs.Rule.Tree
import SpanTags.Rule.RuleSet
import Mathlib.Data.List.Induction

namespace SpanTags

def Segment.Matches : Segment → Text → Prop
  | .literal key, other => key = other
  | .wildcard, _ => True

instance : (segment : Segment) → (key : Text) → Decidable (segment.Matches key)
  | .literal key, other => inferInstanceAs (Decidable (key = other))
  | .wildcard, _ => .isTrue trivial

namespace Rule

-- The segments of the rule match the keys of the path as far as both go.
def Agrees (rule : Rule) (path : List Text) : Prop :=
  ∀ pair ∈ rule.zip path, pair.1.Matches pair.2

instance (rule : Rule) (path : List Text) : Decidable (Agrees rule path) :=
  inferInstanceAs (Decidable (∀ pair ∈ rule.zip path, _))

@[simp] theorem agrees_nil (rule : Rule) : Agrees rule [] := by
  simp [Agrees]

@[simp] theorem agrees_nil_left (path : List Text) : Agrees [] path := by
  simp [Agrees]

@[simp] theorem agrees_cons_iff (segment : Segment) (rule : Rule) (key : Text)
    (path : List Text) :
    Agrees (segment :: rule) (key :: path) ↔ segment.Matches key ∧ Agrees rule path := by
  simp only [Agrees, List.zip_cons_cons, List.forall_mem_cons]

theorem Agrees.of_append {rule : Rule} {path more : List Text}
    (h : Agrees rule (path ++ more)) : Agrees rule path := by
  induction path generalizing rule with
  | nil => simp
  | cons key path ih =>
      cases rule with
      | nil => simp
      | cons segment rule =>
          rw [List.cons_append, agrees_cons_iff] at h
          exact (agrees_cons_iff _ _ _ _).mpr ⟨h.1, ih h.2⟩

-- Keys beyond the end of the rule do not matter.
theorem agrees_append_iff {rule : Rule} {path : List Text} (hlen : rule.length ≤ path.length)
    (more : List Text) : Agrees rule (path ++ more) ↔ Agrees rule path := by
  refine ⟨Agrees.of_append, fun h => ?_⟩
  induction path generalizing rule with
  | nil =>
      rw [List.length_eq_zero_iff.mp (Nat.le_zero.mp hlen)]
      simp
  | cons key path ih =>
      cases rule with
      | nil => simp
      | cons segment rule =>
          rw [agrees_cons_iff] at h
          exact (agrees_cons_iff _ _ _ _).mpr ⟨h.1, ih (Nat.le_of_succ_le_succ hlen) h.2⟩

-- Segments beyond the end of the path do not matter.
theorem agrees_take_iff (rule : Rule) (path : List Text) :
    Agrees (rule.take path.length) path ↔ Agrees rule path := by
  induction path generalizing rule with
  | nil => simp
  | cons key path ih =>
      cases rule with
      | nil => simp
      | cons segment rule => simp only [List.length_cons, List.take_succ_cons, agrees_cons_iff, ih]

theorem agrees_concat_iff {rule : Rule} {path : List Text} (hlen : rule.length = path.length)
    (segment : Segment) (key : Text) :
    Agrees (rule ++ [segment]) (path ++ [key]) ↔ Agrees rule path ∧ segment.Matches key := by
  simp only [Agrees, List.zip_append hlen, List.mem_append, or_imp, forall_and, List.zip_cons_cons,
    List.zip_nil_left, List.mem_singleton, forall_eq]

end Rule

-- The node can be reached along the path: segments that match its keys lead to it.
def RuleTree.Reached (tree : RuleTree) (path : List Text) (node : RuleTree) : Prop :=
  ∃ way : Rule, way.length = path.length ∧ Rule.Agrees way path ∧ tree.follow way = some node

namespace RuleTree

theorem reached_nil_iff (tree node : RuleTree) : tree.Reached [] node ↔ node = tree := by
  constructor
  · rintro ⟨way, hlen, -, hfollow⟩
    rw [List.length_eq_zero_iff.mp hlen, follow_nil] at hfollow
    exact (Option.some.inj hfollow).symm
  · rintro rfl
    exact ⟨[], rfl, by simp, rfl⟩

theorem mem_step_iff (tree node : RuleTree) (key : Text) :
    node ∈ tree.step key ↔
      ∃ segment : Segment, segment.Matches key ∧ tree.edge segment = some node := by
  simp only [step, List.mem_append, Option.mem_toList]
  constructor
  · rintro (hchild | hwild)
    · exact ⟨.literal key, rfl, hchild⟩
    · exact ⟨.wildcard, trivial, hwild⟩
  · rintro ⟨segment, hmatch, hedge⟩
    cases segment with
    | literal other =>
        cases hmatch
        exact Or.inl hedge
    | wildcard => exact Or.inr hedge

theorem reached_concat_iff (tree node : RuleTree) (path : List Text) (key : Text) :
    tree.Reached (path ++ [key]) node ↔
      ∃ above, tree.Reached path above ∧ node ∈ above.step key := by
  constructor
  · rintro ⟨way, hlen, hagrees, hfollow⟩
    rw [List.length_append, List.length_singleton] at hlen
    obtain rfl | ⟨front, segment, rfl⟩ := List.eq_nil_or_concat' way
    · contradiction
    · have hfront : front.length = path.length := by simpa using hlen
      obtain ⟨hfits, hmatch⟩ := (Rule.agrees_concat_iff hfront segment key).mp hagrees
      rw [follow_append, Option.bind_eq_some_iff] at hfollow
      obtain ⟨above, habove, hedge⟩ := hfollow
      rw [follow_cons, Option.bind_eq_some_iff] at hedge
      obtain ⟨child, hchild, hend⟩ := hedge
      cases hend
      exact ⟨above, ⟨front, hfront, hfits, habove⟩,
        (mem_step_iff above node key).mpr ⟨segment, hmatch, hchild⟩⟩
  · rintro ⟨above, ⟨way, hlen, hagrees, hfollow⟩, hstep⟩
    obtain ⟨segment, hmatch, hedge⟩ := (mem_step_iff above node key).mp hstep
    refine ⟨way ++ [segment], by simp [hlen],
      (Rule.agrees_concat_iff hlen segment key).mpr ⟨hagrees, hmatch⟩, ?_⟩
    rw [follow_append, hfollow, Option.bind_some, follow_cons, hedge]
    rfl

-- A rule ends at a node along the path exactly if it is as long as the path and agrees.
theorem exists_reached_terminal_iff (rules : List Rule) (path : List Text) :
    (∃ node, (ofRules rules).Reached path node ∧ node.terminal = true) ↔
      ∃ rule ∈ rules, rule.length = path.length ∧ Rule.Agrees rule path := by
  constructor
  · rintro ⟨node, ⟨way, hlen, hagrees, hfollow⟩, hterminal⟩
    exact ⟨way, (ends_ofRules_iff rules way).mp ⟨node, hfollow, hterminal⟩, hlen, hagrees⟩
  · rintro ⟨rule, hrule, hlen, hagrees⟩
    obtain ⟨node, hfollow, hterminal⟩ := (ends_ofRules_iff rules rule).mpr hrule
    exact ⟨node, ⟨rule, hlen, hagrees, hfollow⟩, hterminal⟩

-- There is a node along the path exactly if a rule goes at least that far with it.
theorem exists_reached_iff (rules : List Rule) {path : List Text} (hne : path ≠ []) :
    (∃ node, (ofRules rules).Reached path node) ↔
      ∃ rule ∈ rules, path.length ≤ rule.length ∧ Rule.Agrees rule path := by
  have hpos := List.length_pos_iff.mpr hne
  constructor
  · rintro ⟨node, way, hlen, hagrees, hfollow⟩
    have hway : way ≠ [] := List.length_pos_iff.mp (by omega)
    obtain ⟨rule, hrule, hprefix⟩ :=
      (isSome_follow_ofRules_iff rules hway).mp (Option.isSome_iff_exists.mpr ⟨node, hfollow⟩)
    refine ⟨rule, hrule, hlen ▸ hprefix.length_le, ?_⟩
    rwa [← Rule.agrees_take_iff, ← hlen, ← List.prefix_iff_eq_take.mp hprefix]
  · rintro ⟨rule, hrule, hlen, hagrees⟩
    have hway : rule.take path.length ≠ [] := by
      rw [← List.length_pos_iff, List.length_take]
      omega
    obtain ⟨node, hfollow⟩ := Option.isSome_iff_exists.mp
      ((isSome_follow_ofRules_iff rules hway).mpr ⟨rule, hrule, List.take_prefix _ _⟩)
    exact ⟨node, rule.take path.length, by rw [List.length_take]; omega,
      (Rule.agrees_take_iff rule path).mpr hagrees, hfollow⟩

end RuleTree

namespace RuleCursor

variable {rules : List Rule} {path : List Text} {cursor : RuleCursor}

-- What a cursor knows after the keys of `path`: whether a rule has matched in full, and
-- if not, which nodes of the tree the path reaches.
structure Tracks (rules : List Rule) (path : List Text) (cursor : RuleCursor) : Prop where
  includesAll : cursor.includesAll = true ↔
    ∃ rule ∈ rules, rule.length ≤ path.length ∧ Rule.Agrees rule path
  nodes : cursor.includesAll = false →
    ∀ node, node ∈ cursor.nodes ↔ (RuleTree.ofRules rules).Reached path node

theorem tracks_head (hrules : [] ∉ rules) : Tracks rules [] (head (RuleTree.ofRules rules)) where
  includesAll := by
    refine iff_of_false Bool.false_ne_true ?_
    rintro ⟨rule, hrule, hlen, -⟩
    rw [List.length_eq_zero_iff.mp (Nat.le_zero.mp hlen)] at hrule
    exact hrules hrule
  nodes := by
    intro _ node
    rw [RuleTree.reached_nil_iff]
    simp [head]

theorem Tracks.mem_matched_iff (h : Tracks rules path cursor) (hall : cursor.includesAll = false)
    (key : Text) (node : RuleTree) :
    node ∈ cursor.matched key ↔ (RuleTree.ofRules rules).Reached (path ++ [key]) node := by
  simp only [matched, List.mem_flatMap, RuleTree.reached_concat_iff, h.nodes hall]

theorem Tracks.any_terminal_iff (h : Tracks rules path cursor)
    (hall : cursor.includesAll = false) (key : Text) :
    (cursor.matched key).any (·.terminal) = true ↔
      ∃ rule ∈ rules, rule.length ≤ path.length + 1 ∧ Rule.Agrees rule (path ++ [key]) := by
  have hexact : (cursor.matched key).any (·.terminal) = true ↔
      ∃ rule ∈ rules, rule.length = path.length + 1 ∧ Rule.Agrees rule (path ++ [key]) := by
    have hends := RuleTree.exists_reached_terminal_iff rules (path ++ [key])
    rw [List.length_append, List.length_singleton] at hends
    simp only [List.any_eq_true, h.mem_matched_iff hall, hends]
  rw [hexact]
  refine exists_congr fun rule => and_congr_right fun hrule => ?_
  refine and_congr_left fun hagrees => ⟨Nat.le_of_eq, fun hlen => ?_⟩
  -- a shorter rule would have matched in full before
  by_contra hne
  have hshort : rule.length ≤ path.length := by omega
  have hbefore := h.includesAll.mpr ⟨rule, hrule, hshort, hagrees.of_append⟩
  rw [hall] at hbefore
  contradiction

theorem Tracks.matched_ne_nil_iff (h : Tracks rules path cursor)
    (hall : cursor.includesAll = false) (key : Text) :
    cursor.matched key ≠ [] ↔
      ∃ rule ∈ rules, path.length + 1 ≤ rule.length ∧ Rule.Agrees rule (path ++ [key]) := by
  have hreached := RuleTree.exists_reached_iff rules (List.append_ne_nil_of_right_ne_nil path
    (List.cons_ne_nil key []))
  rw [List.length_append, List.length_singleton] at hreached
  rw [← hreached]
  constructor
  · intro hne
    obtain ⟨node, hnode⟩ := List.exists_mem_of_ne_nil _ hne
    exact ⟨node, (h.mem_matched_iff hall key node).mp hnode⟩
  · rintro ⟨node, hnode⟩
    exact List.ne_nil_of_mem ((h.mem_matched_iff hall key node).mpr hnode)

theorem Tracks.next (h : Tracks rules path cursor) (key : Text) :
    Tracks rules (path ++ [key]) (cursor.next key) := by
  unfold RuleCursor.next
  split
  · rename_i hall
    refine ⟨iff_of_true hall ?_, fun hnone => ?_⟩
    · obtain ⟨rule, hrule, hlen, hagrees⟩ := h.includesAll.mp hall
      refine ⟨rule, hrule, ?_, (Rule.agrees_append_iff hlen [key]).mpr hagrees⟩
      rw [List.length_append]
      omega
    · rw [hall] at hnone
      contradiction
  · rename_i hall
    rw [Bool.not_eq_true] at hall
    refine ⟨?_, fun _ node => h.mem_matched_iff hall key node⟩
    rw [List.length_append, List.length_singleton]
    exact h.any_terminal_iff hall key

-- A cursor tracks whatever keys it is moved along, admitted or not.
theorem tracks_foldl_next (hrules : [] ∉ rules) (path : List Text) :
    Tracks rules path (path.foldl RuleCursor.next (head (RuleTree.ofRules rules))) := by
  induction path using List.reverseRecOn with
  | nil => exact tracks_head hrules
  | append_singleton path key ih =>
      rw [List.foldl_append]
      exact ih.next key

theorem Tracks.canTag_iff (h : Tracks rules path cursor) (key : Text) (isLast : Bool) :
    cursor.canTag key isLast = true ↔
      (∃ rule ∈ rules, rule.length ≤ path.length + 1 ∧ Rule.Agrees rule (path ++ [key])) ∨
        (isLast = false ∧
          ∃ rule ∈ rules, path.length + 1 < rule.length ∧ Rule.Agrees rule (path ++ [key])) := by
  simp only [canTag, Bool.or_eq_true, Bool.and_eq_true, Bool.not_eq_true', List.isEmpty_eq_false_iff]
  by_cases hall : cursor.includesAll = true
  · obtain ⟨rule, hrule, hlen, hagrees⟩ := h.includesAll.mp hall
    exact iff_of_true (.inl (.inl hall))
      (.inl ⟨rule, hrule, by omega, (Rule.agrees_append_iff hlen [key]).mpr hagrees⟩)
  · rw [Bool.not_eq_true] at hall
    rw [h.any_terminal_iff hall key, h.matched_ne_nil_iff hall key, hall]
    constructor
    · rintro ((hfalse | hfull) | ⟨hlast, rule, hrule, hlen, hagrees⟩)
      · contradiction
      · exact .inl hfull
      · rcases Nat.lt_or_eq_of_le hlen with hlong | hexact
        · exact .inr ⟨hlast, rule, hrule, hlong, hagrees⟩
        · exact .inl ⟨rule, hrule, by omega, hagrees⟩
    · rintro (hfull | ⟨hlast, rule, hrule, hlen, hagrees⟩)
      · exact .inl (.inr hfull)
      · exact .inr ⟨hlast, rule, hrule, by omega, hagrees⟩

end RuleCursor

end SpanTags
