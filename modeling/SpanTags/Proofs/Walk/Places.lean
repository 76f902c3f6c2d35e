import SpanTags.Proofs.Walk.Flattening
import Mathlib.Data.List.Forall2

namespace SpanTags

section Node

variable {ε : Type} (mask : Mask ε) (maxDepth : Int) (root : Text) (node : Node)

-- A walk with tags enough sets one for the place: the walk comes to it, and it is a
-- scalar or a container that is cut off.
def Node.Tagged : Prop :=
  node.Visited mask maxDepth ∧ (node.value.isContainer = true → maxDepth ≤ node.keys.length)

instance : Decidable (node.Tagged mask maxDepth) :=
  inferInstanceAs (Decidable (_ ∧ _))

variable {mask maxDepth root node}

theorem Node.path_of_outcome {emission : Text × Text}
    (h : node.outcome maxDepth root = some emission) :
    emission.1 = Tag.path root node.keys := by
  unfold outcome at h
  split at h
  · exact (congrArg Prod.fst (Option.some.inj h)).symm
  · split at h
    · exact (congrArg Prod.fst (Option.some.inj h)).symm
    · contradiction

theorem Node.outcome_eq_none_iff :
    node.outcome maxDepth root = none ↔
      ¬ (node.value.isContainer = true → maxDepth ≤ node.keys.length) := by
  cases hc : node.value.isContainer with
  | true =>
      rw [outcome_of_isContainer _ _ hc]
      simp
  | false =>
      unfold outcome
      split
      · simp
      · rename_i hvalue
        cases hv : node.value with
        | scalar s => exact absurd hv (hvalue s)
        | _ => simp [hv, Value.isContainer] at hc

-- The tags are set at the places that are tagged, one at each of them and in their order.
theorem forall₂_emitted_eventsOf (nodes : List Node) :
    List.Forall₂ (fun node emission => node.outcome maxDepth root = some emission)
      (nodes.filter fun node => node.Tagged mask maxDepth)
      (emitted (eventsOf mask maxDepth root nodes)) := by
  induction nodes with
  | nil => exact .nil
  | cons node rest ih =>
      rw [eventsOf_cons, emitted_append, emitted_events]
      by_cases hvisited : node.Visited mask maxDepth
      · rw [if_pos hvisited]
        cases houtcome : node.outcome maxDepth root with
        | none =>
            have htagged : ¬ node.Tagged mask maxDepth :=
              fun h => Node.outcome_eq_none_iff.mp houtcome h.2
            simpa [htagged] using ih
        | some emission =>
            have htagged : node.Tagged mask maxDepth := by
              refine ⟨hvisited, Classical.byContradiction fun h => ?_⟩
              rw [Node.outcome_eq_none_iff.mpr h] at houtcome
              contradiction
            simpa [htagged] using ⟨houtcome, ih⟩
      · have htagged : ¬ node.Tagged mask maxDepth := fun h => hvisited h.1
        simpa [hvisited, htagged] using ih

end Node

namespace Walk

variable {ε : Type} (mask : Mask ε) (limits : Limits) (v : Value)

-- The places that are tagged, as many of them as there are tags besides the marker.
def places : List Node :=
  (v.nodes.filter fun node => node.Tagged mask limits.maxDepth).take (limits.maxTags - 1).toNat

theorem places_sublist : (places mask limits v).Sublist v.nodes :=
  (List.take_sublist _ _).trans List.filter_sublist

variable {mask limits v}

theorem tagged_of_mem_places {node : Node} (h : node ∈ places mask limits v) :
    node.Tagged mask limits.maxDepth :=
  of_decide_eq_true (List.mem_filter.mp (List.mem_of_mem_take h)).2

-- The tags that a walk sets are those of these places.
theorem forall₂_places_emissions (hmask : mask.Total) (hv : v.Plain) (root : Text) :
    List.Forall₂ (fun node emission => node.outcome limits.maxDepth root = some emission)
      (places mask limits v) (run mask root limits v).emissions := by
  rw [(run_advances hmask hv root limits).emissions]
  exact List.forall₂_take _ (forall₂_emitted_eventsOf v.nodes)

theorem paths_run (hmask : mask.Total) (hv : v.Plain) (root : Text) :
    (run mask root limits v).emissions.map Prod.fst =
      (places mask limits v).map fun node => Tag.path root node.keys := by
  rw [← List.forall₂_eq_eq_eq, List.forall₂_map_left_iff, List.forall₂_map_right_iff]
  exact (forall₂_places_emissions hmask hv root).flip.imp fun _ _ h => Node.path_of_outcome h

end Walk

end SpanTags
