import SpanTags.Proofs.Rule.Semantics
import SpanTags.Proofs.Walk.Flattening
import Mathlib.Data.List.Flatten

namespace SpanTags

theorem ite_or_some {α : Type} {p q : Prop} [Decidable p] [Decidable q] [Decidable (p ∨ q)]
    (a : α) :
    (if p ∨ q then some a else none) =
      (if p then some a else none).or (if q then some a else none) := by
  by_cases hp : p
  · simp [hp]
  · simp [hp]

section Node

variable (rules : List Rule) (maxDepth : Int) (root : Text) (node : Node)

-- The tag of a place, told from the rules: a scalar that is not too deep has its text if
-- a rule matches the keys it begins with, and a container is cut off at the depth limit
-- if a rule agrees with its keys as far as both go.
def Node.selectedTag? : Option (Text × Text) :=
  match node.value with
  | .scalar s =>
    if node.keys.length ≤ maxDepth ∧
        ∃ rule ∈ rules, rule.length ≤ node.keys.length ∧ Rule.Agrees rule node.keys then
      some (Tag.path root node.keys, s.tagText (Tag.ownKey root node.keys))
    else none
  | _ =>
    if node.keys.length = maxDepth ∧ ∃ rule ∈ rules, Rule.Agrees rule node.keys then
      some (Tag.path root node.keys, "truncated")
    else none

-- Each rule selects for itself.
theorem Node.selectedTag?_append (rules' : List Rule) :
    node.selectedTag? (rules ++ rules') maxDepth root =
      (node.selectedTag? rules maxDepth root).or (node.selectedTag? rules' maxDepth root) := by
  unfold selectedTag?
  simp only [List.mem_append, or_and_right, exists_or, and_or_left]
  split
  · exact ite_or_some _
  · exact ite_or_some _

variable {rules maxDepth root node} {filter : Option Text} {set : RuleSet}

theorem RuleSet.admits_mask_way_iff (h : ofOption filter = .ok set) {v : Value} (hv : v.Plain)
    (hn : node ∈ v.nodes) (hne : node.way ≠ []) :
    set.mask.Admits node.way ↔ ∃ rule ∈ set.rules,
      (node.value.isContainer = true ∨ rule.length ≤ node.keys.length) ∧
        Rule.Agrees rule node.keys := by
  rcases hv.way_eq_concat [] node hn with rfl | ⟨-, front, key, hway, hfront⟩
  · contradiction
  · rw [List.nil_append] at hway
    rw [hway, admits_mask_concat_iff h hfront, Node.keys, hway, List.map_append, List.length_append,
      List.length_map]
    rfl

-- The mask of some rules tags what the rules select; the root itself is never cut off.
theorem Node.tag?_mask (h : RuleSet.ofOption filter = .ok set) {v : Value} (hv : v.Plain)
    (hc : v.isContainer = true) (hdepth : 1 ≤ maxDepth) (hn : node ∈ v.nodes) :
    node.tag? set.mask maxDepth root = node.selectedTag? set.rules maxDepth root := by
  rcases hv.way_eq_concat [] node hn with rfl | ⟨-, front, key, hway, -⟩
  · have hlen : ((Node.mk [] v).keys.length : Int) ≠ maxDepth := by
      simp only [keys, List.map_nil, List.length_nil]
      omega
    cases v with
    | scalar s => contradiction
    | _ => simp only [tag?, selectedTag?, hlen, if_false, false_and, ite_self]
  · have hadmits := RuleSet.admits_mask_way_iff h hv hn (by simp [hway])
    unfold tag? selectedTag?
    cases hvalue : node.value with
    | scalar s =>
        simp only [hvalue, Value.isContainer, Bool.false_eq_true, false_or] at hadmits
        by_cases hlen : (node.keys.length : Int) ≤ maxDepth
        · simp only [hadmits, hlen, if_true, true_and]
        · simp only [hlen, if_false, false_and, ite_self]
    | _ =>
        simp only [hvalue, Value.isContainer, true_or, true_and] at hadmits
        by_cases hlen : (node.keys.length : Int) = maxDepth
        · simp only [hadmits, hlen, if_true, true_and]
        · simp only [hlen, if_false, false_and, ite_self]

end Node

namespace Walk

variable {filter : Option Text} {set : RuleSet} {v : Value}

-- A walk with fewer rules is trimmed only if one with more rules is.
theorem trimmed_run_of_subset (h : RuleSet.ofOption filter = .ok set) {other : Option Text}
    {set' : RuleSet} (h' : RuleSet.ofOption other = .ok set') (hsub : set.rules ⊆ set'.rules)
    (hv : v.Plain) (root : Text) (limits : Limits)
    (htrimmed : (run set.mask root limits v).trimmed = true) :
    (run set'.mask root limits v).trimmed = true := by
  have hevents : (eventsOf set.mask limits.maxDepth root v.nodes).Sublist
      (eventsOf set'.mask limits.maxDepth root v.nodes) := by
    refine .flatMap_right _ fun node _ => ?_
    unfold Node.events
    split
    · rename_i hvisited
      rw [if_pos ⟨RuleSet.admits_mask_of_subset h h' hsub hvisited.1, hvisited.2⟩]
    · exact List.nil_sublist _
  rw [(run_advances (RuleSet.mask_total _) hv root limits).trimmed] at htrimmed ⊢
  exact late_of_sublist hevents htrimmed

theorem emissions_run_eq_selected (h : RuleSet.ofOption filter = .ok set) (hv : v.Plain)
    (hc : v.isContainer = true) (root : Text) {limits : Limits} (hdepth : 1 ≤ limits.maxDepth)
    (htrimmed : (run set.mask root limits v).trimmed = false) :
    (run set.mask root limits v).emissions =
      v.nodes.filterMap (Node.selectedTag? set.rules limits.maxDepth root) := by
  have hrun := run_advances set.mask_total hv root limits
  rw [hrun.trimmed] at htrimmed
  rw [hrun.emissions, List.take_of_length_le (hrun.complete htrimmed), emitted_eventsOf (by omega)]
  exact List.filterMap_congr fun node hn => Node.tag?_mask h hv hc hdepth hn

-- A walk that is not trimmed tags what the rules select and nothing else, and two lists
-- of rules that are joined select what either of them does.
theorem emissions_run_mask_eq_selected (hv : v.Plain) (hc : v.isContainer = true) (root : Text)
    (limits : Limits) (hdepth : 1 ≤ limits.maxDepth) :
    (∀ filter set, RuleSet.ofOption filter = .ok set →
      (run set.mask root limits v).trimmed = false →
        (run set.mask root limits v).fault = none ∧
        (run set.mask root limits v).emissions =
          v.nodes.filterMap (Node.selectedTag? set.rules limits.maxDepth root)) ∧
    ∀ front back set set', front.strip ≠ [] → back.strip ≠ [] →
      RuleSet.parse front = .ok set → RuleSet.parse back = .ok set' →
        ∃ joined, RuleSet.parse (front ++ "," ++ back) = .ok joined ∧
          ((run joined.mask root limits v).trimmed = false →
            (run set.mask root limits v).emissions =
              v.nodes.filterMap (Node.selectedTag? set.rules limits.maxDepth root) ∧
            (run set'.mask root limits v).emissions =
              v.nodes.filterMap (Node.selectedTag? set'.rules limits.maxDepth root) ∧
            (run joined.mask root limits v).emissions = v.nodes.filterMap fun node =>
              (node.selectedTag? set.rules limits.maxDepth root).or
                (node.selectedTag? set'.rules limits.maxDepth root)) := by
  refine ⟨fun filter set h htrimmed => ⟨(run_advances set.mask_total hv root limits).fault,
    emissions_run_eq_selected h hv hc root hdepth htrimmed⟩, ?_⟩
  intro front back set set' hfront hback h h'
  have hjoined := RuleSet.parse_append_comma hfront hback h h'
  refine ⟨_, hjoined, fun htrimmed => ?_⟩
  have hfirst : RuleSet.ofOption (some front) = .ok set := h
  have hsecond : RuleSet.ofOption (some back) = .ok set' := h'
  have hboth : RuleSet.ofOption (some (front ++ "," ++ back)) = _ := hjoined
  have hone : (run set.mask root limits v).trimmed = false := by
    rw [← Bool.not_eq_true] at htrimmed ⊢
    exact mt (trimmed_run_of_subset hfirst hboth (List.subset_append_left _ _) hv root limits)
      htrimmed
  have hother : (run set'.mask root limits v).trimmed = false := by
    rw [← Bool.not_eq_true] at htrimmed ⊢
    exact mt (trimmed_run_of_subset hsecond hboth (List.subset_append_right _ _) hv root limits)
      htrimmed
  refine ⟨emissions_run_eq_selected hfirst hv hc root hdepth hone,
    emissions_run_eq_selected hsecond hv hc root hdepth hother, ?_⟩
  rw [emissions_run_eq_selected hboth hv hc root hdepth htrimmed]
  exact List.filterMap_congr fun node _ => node.selectedTag?_append _ _ _ _

theorem emissions_run_mask_joined :
    let v : Value := .object
      [("user", .object [("name", .scalar (.text "ann")), ("token", .scalar (.text "t0"))]),
        ("items", .list [.object [("id", .scalar (.int 5))], .scalar .null])]
    let first : RuleSet := ⟨["user.*"], [[.literal "user", .wildcard]]⟩
    let second : RuleSet := ⟨["user.name", "items.*.id"],
      [[.literal "user", .literal "name"], [.literal "items", .wildcard, .literal "id"]]⟩
    let joined : RuleSet := ⟨first.sources ++ second.sources, first.rules ++ second.rules⟩
    v.Plain ∧ RuleSet.parse "user.*" = .ok first ∧
      RuleSet.parse "user.name, items.*.id" = .ok second ∧
      RuleSet.parse "user.*,user.name, items.*.id" = .ok joined ∧
      (run joined.mask "r" ⟨2, 9⟩ v).trimmed = false ∧
      (run first.mask "r" ⟨2, 9⟩ v).emissions =
        ([("r.user.name", "ann"), ("r.user.token", "redacted")] : List (Text × Text)) ∧
      (run second.mask "r" ⟨2, 9⟩ v).emissions =
        ([("r.user.name", "ann"), ("r.items.0", "truncated")] : List (Text × Text)) ∧
      (run joined.mask "r" ⟨2, 9⟩ v).emissions =
        ([("r.user.name", "ann"), ("r.user.token", "redacted"), ("r.items.0", "truncated")] :
          List (Text × Text)) := by
  intro v first second joined
  have hv : v.Plain := by
    simp only [v, Value.plain_object_iff, Value.plain_list_iff, Value.plain_scalar_iff,
      List.mem_cons, List.not_mem_nil, or_false, forall_eq_or_imp, forall_eq]
    exact ⟨⟨trivial, trivial⟩, by decide +kernel, trivial⟩
  have hfirst : RuleSet.parse "user.*" = .ok first := rfl
  have hsecond : RuleSet.parse "user.name, items.*.id" = .ok second := rfl
  have hboth : RuleSet.parse "user.*,user.name, items.*.id" = .ok joined := rfl
  have htrimmed : (run joined.mask "r" ⟨2, 9⟩ v).trimmed = false := by decide +kernel
  obtain ⟨hselected, hjoin⟩ := emissions_run_mask_eq_selected hv rfl "r" ⟨2, 9⟩ (by decide)
  obtain ⟨set, hset, hparts⟩ := hjoin "user.*" "user.name, items.*.id" first second
    (by decide) (by decide) hfirst hsecond
  obtain rfl : set = joined := Except.ok.inj (hset.symm.trans hboth)
  obtain ⟨hone, hother, -⟩ := hparts htrimmed
  have hall := (hselected (some "user.*,user.name, items.*.id") joined hboth htrimmed).2
  refine ⟨hv, hfirst, hsecond, hboth, htrimmed, ?_, ?_, ?_⟩
  · rw [hone]
    decide +kernel
  · rw [hother]
    decide +kernel
  · rw [hall]
    decide +kernel

end Walk

end SpanTags
