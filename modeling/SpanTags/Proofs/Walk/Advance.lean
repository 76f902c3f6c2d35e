import SpanTags.Proofs.Walk.Arrival
import SpanTags.Proofs.Walk.Visit

namespace SpanTags

section Node

variable {ε : Type} (mask : Mask ε) (maxDepth : Int) (root : Text) (node : Node)

-- A walk that does not run out of tags comes to the place. The root is visited whatever
-- the depth.
def Node.Visited : Prop :=
  mask.Admits node.way ∧ node.way.length ≤ maxDepth.toNat

instance : Decidable (node.Visited mask maxDepth) :=
  inferInstanceAs (Decidable (_ ∧ _))

-- The tag that a visit to the place sets.
def Node.outcome : Option (Text × Text) :=
  match node.value with
  | .scalar s => some (Tag.path root node.keys, s.tagText (Tag.ownKey root node.keys))
  | _ =>
    if maxDepth ≤ node.keys.length then some (Tag.path root node.keys, Tag.truncated) else none

theorem Node.outcome_of_isContainer {node : Node}
    (hc : node.value.isContainer = true) :
    node.outcome maxDepth root =
      if maxDepth ≤ node.keys.length then some (Tag.path root node.keys, Tag.truncated)
      else none := by
  unfold outcome
  split
  · simp_all [Value.isContainer]
  · rfl

-- The visit to the place and its tag as a walk records them.
def Node.events : List Event :=
  if node.Visited mask maxDepth then
    .entered node.keys :: (node.outcome maxDepth root).toList.map fun (path, text) =>
      .emitted path text
  else []

-- What a walk that does not run out of tags records of the places, besides the
-- questions to the mask.
def eventsOf (nodes : List Node) : List Event :=
  nodes.flatMap (Node.events mask maxDepth root)

variable {mask maxDepth root}

theorem eventsOf_cons (rest : List Node) :
    eventsOf mask maxDepth root (node :: rest) =
      node.events mask maxDepth root ++ eventsOf mask maxDepth root rest := rfl

end Node

namespace Walk

variable {ε : Type} {mask : Mask ε} {maxDepth : Int} {root : Text} {walk later : Walk ε}

-- The walk goes on through `events` as far as it has tags left. If no visit comes too
-- late, none of the tags is missing, and the visits are counted one after the other; the
-- first `known` of them already count at the start.
structure Advances (known : Nat) (events : List Event) (walk later : Walk ε) : Prop where
  fault : later.fault = none
  emissions : later.emissions = walk.emissions ++ (emitted events).take walk.left
  left : later.left = walk.left - (emitted events).length
  trimmed : later.trimmed = (walk.trimmed || late walk.left events)
  complete : late walk.left events = false → (emitted events).length ≤ walk.left
  arrivals : late walk.left events = false →
    later.arrivals = walk.arrivals ++ (visitCounts walk.emissions.length events).drop known

namespace Advances

theorem refl (hf : walk.fault = none) : Advances 0 [] walk walk :=
  ⟨hf, by simp, by simp, by simp, by simp, by simp [visitCounts]⟩

theorem asked (hf : walk.fault = none) (keys : List Text) (isLast : Bool) :
    Advances 0 [] walk (walk.record (.asked keys isLast)) :=
  ⟨hf, by simp, by simp, by simp [record], by simp, by simp [visitCounts]⟩

theorem trans {final : Walk ε} {events events' : List Event}
    (h : Advances 0 events walk later) (h' : Advances 0 events' later final) :
    Advances 0 (events ++ events') walk final where
  fault := h'.fault
  emissions := by
    rw [h'.emissions, h.emissions, h.left, emitted_append, List.take_append, List.append_assoc]
  left := by
    rw [h'.left, h.left, emitted_append, List.length_append]
    omega
  trimmed := by rw [h'.trimmed, h.trimmed, h.left, late_append, Bool.or_assoc]
  complete := by
    intro hlate
    rw [late_append, Bool.or_eq_false_iff] at hlate
    have hfirst := h.complete hlate.1
    have hsecond := h'.complete (by rw [h.left]; exact hlate.2)
    rw [h.left] at hsecond
    rw [emitted_append, List.length_append]
    omega
  arrivals := by
    intro hlate
    rw [late_append, Bool.or_eq_false_iff] at hlate
    have hcount : later.emissions.length = walk.emissions.length + (emitted events).length := by
      rw [h.emissions, List.take_of_length_le (h.complete hlate.1), List.length_append]
    rw [h'.arrivals (by rw [h.left]; exact hlate.2), h.arrivals hlate.1, hcount,
      visitCounts_append, List.drop_zero, List.drop_zero, List.drop_zero, List.append_assoc]

-- A visit that finds no tag left skips all that is below.
theorem mark (hf : walk.fault = none) (hleft : walk.left = 0) (keys : List Text)
    (below : List Event) : Advances 1 (.entered keys :: below) walk walk.mark where
  fault := hf
  emissions := by simp [hleft]
  left := by simp [hleft]
  trimmed := by simp [hleft, Walk.mark]
  complete := by simp [hleft]
  arrivals := by simp [hleft]

theorem emit (hf : walk.fault = none) (hleft : walk.left ≠ 0) (path text : Text) :
    Advances 0 [.emitted path text] walk (walk.emit path (.ok text)) where
  fault := hf
  emissions := by
    rw [emissions_emit_ok, emitted_emitted, emitted_nil, List.take_of_length_le]
    simp only [List.length_singleton]
    omega
  left := by simp
  trimmed := by simp [late, visitCounts, Walk.emit, record]
  complete := by
    intro _
    simp only [emitted_emitted, emitted_nil, List.length_singleton]
    omega
  arrivals := by simp [visitCounts]

-- The visit itself counts before what it comes to.
theorem arrive {below : List Event} (hleft : walk.left ≠ 0) (h : Advances 0 below walk later)
    (keys : List Text) : Advances 1 (.entered keys :: below) walk later where
  fault := h.fault
  emissions := h.emissions
  left := h.left
  trimmed := by rw [h.trimmed, late_entered, decide_eq_false hleft, Bool.false_or]
  complete := by
    intro hlate
    rw [late_entered, Bool.or_eq_false_iff] at hlate
    exact h.complete hlate.2
  arrivals := by
    intro hlate
    rw [late_entered, Bool.or_eq_false_iff] at hlate
    rw [h.arrivals hlate.2]
    rfl

theorem enter {keys : List Text} {isLast : Bool} {below : List Event}
    (h : Advances 1 (.entered keys :: below)
      ((walk.record (.asked keys isLast)).record (.entered keys)) later) :
    Advances 0 (.entered keys :: below) walk later where
  fault := h.fault
  emissions := by simpa using h.emissions
  left := by simpa using h.left
  trimmed := h.trimmed
  complete := h.complete
  arrivals := by
    intro hlate
    have hcounts := h.arrivals hlate
    simp only [arrivals_entered, arrivals_asked, emissions_entered, emissions_asked, visitCounts,
      List.drop_succ_cons, List.drop_zero, List.append_assoc] at hcounts
    exact hcounts

end Advances

section Total

variable (hmask : mask.Total) {cursor : mask.Cursor} {keys : List Text} {key : Text} {v : Value}
  {inside : List Text → mask.Cursor → Walk ε → Walk ε}

theorem enter_of_grants (hf : walk.fault = none) (h : mask.grants cursor key v = true) :
    walk.enter mask cursor keys (.ok key) (!v.isContainer) inside =
      inside (keys ++ [key]) (mask.next cursor key)
        ((walk.record (.asked (keys ++ [key]) (!v.isContainer))).record
          (.entered (keys ++ [key]))) := by
  simp only [Walk.enter, hf, Mask.canTag_of_grants h]

include hmask in
theorem enter_of_not_grants (hf : walk.fault = none) (h : ¬mask.grants cursor key v = true) :
    walk.enter mask cursor keys (.ok key) (!v.isContainer) inside =
      walk.record (.asked (keys ++ [key]) (!v.isContainer)) := by
  simp only [Walk.enter, hf, hmask.canTag_of_not_grants h]

end Total

-- Below an entry that is not admitted, and below a container that is cut off, nothing
-- is visited.
theorem eventsOf_nodesAt_eq_nil {v : Value} (hv : v.Plain) {way : List (Text × Value)}
    (h : ¬(mask.Admits way ∧ way.length ≤ maxDepth.toNat)) :
    eventsOf mask maxDepth root (v.nodesAt way) = [] := by
  refine List.flatMap_eq_nil_iff.mpr fun node hn => if_neg fun hvisited => h ?_
  obtain ⟨rest, hrest⟩ := hv.way_prefix way node hn
  obtain ⟨hadmits, hdepth⟩ := hvisited
  rw [← hrest] at hadmits hdepth
  rw [List.length_append] at hdepth
  exact ⟨hadmits.of_append, by omega⟩

theorem eventsOf_nodesBelow_cons (way : List (Text × Value)) (child : Text × Value)
    (rest : List (Text × Value)) :
    eventsOf mask maxDepth root (Value.nodesBelow way (child :: rest)) =
      eventsOf mask maxDepth root (child.2.nodesAt (way ++ [child])) ++
        eventsOf mask maxDepth root (Value.nodesBelow way rest) := by
  simp only [eventsOf, Value.nodesBelow, List.flatMap_cons, List.flatMap_append]

theorem eventsOf_nodesBelow_eq_nil {children : List (Text × Value)}
    (hplain : ∀ child ∈ children, child.2.Plain) {way : List (Text × Value)}
    (hdepth : maxDepth.toNat ≤ way.length) :
    eventsOf mask maxDepth root (Value.nodesBelow way children) = [] := by
  induction children with
  | nil => rfl
  | cons child rest ih =>
      have hchild : eventsOf mask maxDepth root (child.2.nodesAt (way ++ [child])) = [] :=
        eventsOf_nodesAt_eq_nil (hplain child List.mem_cons_self) fun h => by
          have hlen := h.2
          rw [List.length_append, List.length_singleton] at hlen
          omega
      rw [eventsOf_nodesBelow_cons, hchild,
        ih fun other ho => hplain other (List.mem_cons_of_mem _ ho)]
      rfl

theorem eventsOf_nodesAt {way : List (Text × Value)} (hway : mask.Admits way)
    (hdepth : way.length ≤ maxDepth.toNat) (v : Value) :
    eventsOf mask maxDepth root (v.nodesAt way) =
      .entered (way.map Prod.fst) ::
        ((Node.outcome maxDepth root ⟨way, v⟩).toList.map fun (path, text) =>
          .emitted path text) ++
        eventsOf mask maxDepth root (Value.nodesBelow way v.children) := by
  rw [Value.nodesAt_eq, eventsOf_cons, Node.events, if_pos ⟨hway, hdepth⟩]
  rfl

-- The children of a container are visited one after the other if each of them is.
theorem visitChildren_advances (hmask : mask.Total) {way : List (Text × Value)}
    (hway : mask.Admits way) (hdepth : way.length < maxDepth.toNat)
    {children : List (Text × Value)} (hplain : ∀ child ∈ children, child.2.Plain)
    (hvisit : ∀ child ∈ children, mask.Admits (way ++ [child]) → ∀ walk : Walk ε,
      walk.fault = none →
        Advances 1 (eventsOf mask maxDepth root (child.2.nodesAt (way ++ [child]))) walk
          (visit mask maxDepth root ((way ++ [child]).map Prod.fst)
            (mask.cursorAfter ((way ++ [child]).map Prod.fst)) child.2 walk))
    (hf : walk.fault = none) :
    Advances 0 (eventsOf mask maxDepth root (Value.nodesBelow way children)) walk
      (visitChildren mask maxDepth root (way.map Prod.fst)
        (mask.cursorAfter (way.map Prod.fst)) children walk) := by
  induction children generalizing walk with
  | nil => exact .refl hf
  | cons child rest ih =>
      have hfirst : Advances 0 (eventsOf mask maxDepth root (child.2.nodesAt (way ++ [child])))
          walk (walk.enter mask (mask.cursorAfter (way.map Prod.fst)) (way.map Prod.fst)
            (.ok child.1) (!child.2.isContainer)
            fun keys cursor walk => visit mask maxDepth root keys cursor child.2 walk) := by
        by_cases hg : mask.grants (mask.cursorAfter (way.map Prod.fst)) child.1 child.2 = true
        · have hchild : mask.Admits (way ++ [child]) :=
            (Mask.admits_concat_iff way child.1 child.2).mpr ⟨hway, hg⟩
          have hlen : (way ++ [child]).length ≤ maxDepth.toNat := by
            rw [List.length_append, List.length_singleton]
            omega
          have hv := hvisit child List.mem_cons_self hchild
          simp only [eventsOf_nodesAt hchild hlen, List.map_append, List.map_cons, List.map_nil,
            Mask.cursorAfter_concat, List.cons_append] at hv ⊢
          rw [enter_of_grants hf hg]
          exact (hv ((walk.record _).record _) hf).enter
        · rw [enter_of_not_grants hmask hf hg]
          rw [eventsOf_nodesAt_eq_nil (hplain child List.mem_cons_self) fun h =>
            hg ((Mask.admits_concat_iff way child.1 child.2).mp h.1).2]
          exact .asked hf _ _
      rw [eventsOf_nodesBelow_cons]
      exact hfirst.trans (ih (fun other ho => hplain other (List.mem_cons_of_mem _ ho))
        (fun other ho => hvisit other (List.mem_cons_of_mem _ ho)) hfirst.fault)

-- A visit records what the places at and below it come to.
theorem visit_advances (hmask : mask.Total) {v : Value} (hv : v.Plain) :
    ∀ way : List (Text × Value), mask.Admits way → way.length ≤ maxDepth.toNat →
      ∀ walk : Walk ε, walk.fault = none →
        Advances 1 (eventsOf mask maxDepth root (v.nodesAt way)) walk
          (visit mask maxDepth root (way.map Prod.fst) (mask.cursorAfter (way.map Prod.fst))
            v walk) := by
  refine Value.Plain.induction (motive := fun v => ∀ way, mask.Admits way →
    way.length ≤ maxDepth.toNat → ∀ walk : Walk ε, walk.fault = none →
      Advances 1 (eventsOf mask maxDepth root (v.nodesAt way)) walk
        (visit mask maxDepth root (way.map Prod.fst) (mask.cursorAfter (way.map Prod.fst))
          v walk)) ?_ ?_ hv
  · intro s hs way hway hdepth walk hf
    rw [eventsOf_nodesAt hway hdepth, visit_scalar hs]
    split
    · exact .mark hf (by assumption) _ _
    · exact .arrive (by assumption) (.emit hf (by assumption) _ _) _
  · intro v hv hc ih way hway hdepth walk hf
    rw [eventsOf_nodesAt hway hdepth, visit_container hv hc]
    split
    · exact .mark hf (by assumption) _ _
    · rename_i hleft
      rw [Node.outcome_of_isContainer maxDepth root hc]
      refine .arrive hleft ?_ _
      by_cases hcut : maxDepth ≤ way.length
      · rw [eventsOf_nodesBelow_eq_nil hv.children (by omega)]
        simp only [Node.keys, List.length_map, hcut, if_true]
        exact .emit hf hleft _ _
      · simp only [Node.keys, List.length_map, hcut, if_false]
        exact visitChildren_advances hmask hway (by omega) hv.children
          (fun child hchild hadmits walk hf => ih child hchild _ hadmits
            (by rw [List.length_append, List.length_singleton]; omega) walk hf) hf

end Walk

end SpanTags
