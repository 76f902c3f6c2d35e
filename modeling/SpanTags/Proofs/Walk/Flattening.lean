import SpanTags.Proofs.Walk.Advance

namespace SpanTags

section Node

variable {ε : Type} (mask : Mask ε) (maxDepth : Int) (root : Text) (node : Node)

-- The tag of a place, told from the whole way to it: a scalar that is not too deep has
-- its text, and a container is cut off at the depth limit.
def Node.tag? : Option (Text × Text) :=
  if mask.Admits node.way then
    match node.value with
    | .scalar s =>
      if node.keys.length ≤ maxDepth then
        some (Tag.path root node.keys, s.tagText (Tag.ownKey root node.keys))
      else none
    | _ =>
      if node.keys.length = maxDepth then some (Tag.path root node.keys, "truncated") else none
  else none

variable {mask maxDepth root node}

theorem emitted_events :
    emitted (node.events mask maxDepth root) =
      if node.Visited mask maxDepth then (node.outcome maxDepth root).toList else [] := by
  unfold Node.events
  split
  · cases node.outcome maxDepth root <;> simp
  · rfl

theorem emitted_events_eq_tag? (hdepth : 0 ≤ maxDepth) :
    emitted (node.events mask maxDepth root) = (node.tag? mask maxDepth root).toList := by
  rw [emitted_events]
  have hlen : node.way.length = node.keys.length := by simp [Node.keys]
  by_cases hadmits : mask.Admits node.way
  · simp only [Node.Visited, Node.tag?, hadmits, true_and, if_true, Node.outcome, hlen]
    cases hv : node.value with
    | scalar s =>
        dsimp only
        by_cases hd : (node.keys.length : Int) ≤ maxDepth
        · rw [if_pos hd, if_pos (by omega)]
        · rw [if_neg hd, if_neg (by omega)]
          rfl
    | _ =>
        dsimp only
        by_cases hd : (node.keys.length : Int) = maxDepth
        · rw [if_pos hd, if_pos (by omega), if_pos (by omega)]
          rfl
        · rw [if_neg hd]
          split
          · rw [if_neg (by omega)]
          · rfl
  · simp [Node.Visited, Node.tag?, hadmits]

theorem Node.length_emitted_events_le :
    (emitted (node.events mask maxDepth root)).length ≤ 1 := by
  rw [emitted_events]
  split
  · cases node.outcome maxDepth root <;> simp
  · simp

-- The visit of a single place comes before its own tag.
theorem Node.late_events {left : Nat} (hleft : left ≠ 0) :
    late left (node.events mask maxDepth root) = false := by
  unfold events
  split
  · cases node.outcome maxDepth root <;> simp [hleft]
  · rfl

end Node

namespace Walk

variable {ε : Type} {mask : Mask ε} {maxDepth : Int} {root : Text}

theorem emitted_eventsOf (hdepth : 0 ≤ maxDepth) (nodes : List Node) :
    emitted (eventsOf mask maxDepth root nodes) =
      nodes.filterMap (Node.tag? mask maxDepth root) := by
  induction nodes with
  | nil => rfl
  | cons node rest ih =>
      rw [eventsOf_cons, emitted_append, emitted_events_eq_tag? hdepth, ih]
      cases h : node.tag? mask maxDepth root <;> simp [h]

-- A tag for each place is enough: no visit comes too late.
theorem late_eventsOf {nodes : List Node} {left : Nat} (h : nodes.length ≤ left) :
    late left (eventsOf mask maxDepth root nodes) = false := by
  induction nodes generalizing left with
  | nil => rfl
  | cons node rest ih =>
      rw [List.length_cons] at h
      have hone : (emitted (node.events mask maxDepth root)).length ≤ 1 :=
        node.length_emitted_events_le
      rw [eventsOf_cons, late_append, node.late_events (by omega), Bool.false_or]
      exact ih (by omega)

theorem run_advances (hmask : mask.Total) {v : Value} (hv : v.Plain) (root : Text)
    (limits : Limits) :
    Advances 1 (eventsOf mask limits.maxDepth root v.nodes) (start limits)
      (run mask root limits v) :=
  visit_advances hmask hv [] Mask.admits_nil (Nat.zero_le _) (start limits) rfl

theorem late_run_eq_false {v : Value} {limits : Limits}
    (htags : (v.nodes.length : Int) < limits.maxTags) :
    late (start (ε := ε) limits).left (eventsOf mask limits.maxDepth root v.nodes) = false := by
  refine late_eventsOf ?_
  simp only [start]
  omega

-- What a walk with tags enough sets is one tag for each place that has one, in
-- depth-first order.
theorem emissions_run_eq_filterMap_nodes (hmask : mask.Total) {v : Value} (hv : v.Plain)
    (root : Text) (limits : Limits) (hdepth : 0 ≤ limits.maxDepth)
    (htags : (v.nodes.length : Int) < limits.maxTags) :
    (run mask root limits v).fault = none ∧
      (run mask root limits v).emissions =
        v.nodes.filterMap (Node.tag? mask limits.maxDepth root) := by
  have hrun := run_advances hmask hv root limits
  have hcomplete := hrun.complete (late_run_eq_false htags)
  refine ⟨hrun.fault, ?_⟩
  rw [hrun.emissions, List.take_of_length_le hcomplete, emitted_eventsOf hdepth]
  rfl

theorem emissions_run_order :
    let v : Value := .object
      [("user", .object [("name", .scalar (.text "ann")), ("token", .scalar (.text "t0"))]),
        ("a.b", .list [.scalar (.int 5), .tuple [.scalar .null]])]
    (Mask.refusing ["name"] []).Total ∧ v.Plain ∧ v.nodes.length < 20 ∧
      (run (Mask.refusing ["name"] []) "r" ⟨2, 20⟩ v).emissions =
        ([("r.user.token", "redacted"), ("r.a\\.b.0", "5"), ("r.a\\.b.1", "truncated")] :
          List (Text × Text)) := by
  intro v
  have hmask := Mask.refusing_total ["name"]
  have hv : v.Plain := by
    simp only [v, Value.plain_object_iff, Value.plain_list_iff, Value.plain_tuple_iff,
      Value.plain_scalar_iff, List.mem_cons, List.not_mem_nil, or_false, forall_eq_or_imp, forall_eq]
    exact ⟨⟨trivial, trivial⟩, by decide +kernel, trivial⟩
  have hnodes : v.nodes.length < 20 := by decide
  have hrun := emissions_run_eq_filterMap_nodes hmask hv "r" ⟨2, 20⟩ (by decide)
    (by decide)
  refine ⟨hmask, hv, hnodes, ?_⟩
  rw [hrun.2]
  decide +kernel

end Walk

end SpanTags
