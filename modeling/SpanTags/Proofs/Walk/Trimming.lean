import SpanTags.Proofs.Ordered
import SpanTags.Proofs.Walk.Flattening
import SpanTags.Tag.Body

namespace SpanTags.Walk

variable {ε : Type} {mask : Mask ε} {root : Text} {walk : Walk ε}

-- The tags before the marker is set.
def textTags (walk : Walk ε) : Tags :=
  Ordered.ofPairs (walk.emissions.map (Prod.map id TagValue.text))

theorem tags_eq (walk : Walk ε) :
    walk.tags =
      if walk.trimmed = true then Ordered.put Tag.trimmedName .marker walk.textTags
      else walk.textTags := rfl

theorem mem_emissions_of_mem_textTags {tag : Text × TagValue} (h : tag ∈ walk.textTags) :
    ∃ emission ∈ walk.emissions, tag = (emission.1, .text emission.2) := by
  obtain ⟨emission, hemission, rfl⟩ := List.mem_map.mp (Ordered.mem_of_mem_ofPairs h)
  exact ⟨emission, hemission, rfl⟩

theorem mem_tags_cases {tag : Text × TagValue} (h : tag ∈ walk.tags) :
    tag = (Tag.trimmedName, .marker) ∨
      ∃ emission ∈ walk.emissions, tag = (emission.1, .text emission.2) := by
  rw [tags_eq] at h
  split at h
  · exact (Ordered.mem_of_mem_put h).imp_right mem_emissions_of_mem_textTags
  · exact .inr (mem_emissions_of_mem_textTags h)

theorem mem_emissions_of_mem_tags {tag : Text × TagValue} (h : tag ∈ walk.tags)
    (hmarker : tag.2 ≠ .marker) :
    ∃ emission ∈ walk.emissions, tag = (emission.1, .text emission.2) := by
  refine (mem_tags_cases h).resolve_left ?_
  rintro rfl
  exact hmarker rfl

theorem get?_textTags_ne_marker (name : Text) :
    Ordered.get? name walk.textTags ≠ some .marker := by
  intro hmarker
  refine absurd rfl (Ordered.get?_putAll_induction (P := (· ≠ TagValue.marker))
    ?_ (by simp [Ordered.get?]) name .marker hmarker)
  intro pair hpair
  obtain ⟨emission, _, rfl⟩ := List.mem_map.mp hpair
  simp

-- The marker is among the tags exactly if it was set, whatever the paths of the texts.
theorem get?_tags_eq_marker_iff :
    Ordered.get? Tag.trimmedName walk.tags = some .marker ↔ walk.trimmed = true := by
  rw [tags_eq]
  split
  · rename_i ht
    simp [Ordered.get?_put, ht]
  · rename_i ht
    exact iff_of_false (get?_textTags_ne_marker _) ht

theorem length_tags_le (walk : Walk ε) :
    walk.tags.length ≤ walk.emissions.length + walk.trimmed.toNat := by
  have hset : walk.textTags.length ≤ walk.emissions.length := by
    simpa only [List.length_map, textTags] using
      Ordered.length_ofPairs_le (walk.emissions.map (Prod.map id TagValue.text))
  rw [tags_eq]
  split
  · rename_i ht
    have hput := Ordered.length_put_le Tag.trimmedName TagValue.marker walk.textTags
    rw [ht, Bool.toNat_true]
    omega
  · omega

-- No walk has more tags than it may, except that the marker alone is always allowed.
theorem length_tags_run_le (limits : Limits) (v : Value) :
    ((run mask root limits v).tags.length : Int) ≤ max 1 limits.maxTags := by
  have hsteps : Steps root (start limits) (run mask root limits v) := run_steps limits v
  have hcount := hsteps.emissions_length_add_left
  have htags := length_tags_le (run mask root limits v)
  have hmarker := Bool.toNat_le (run mask root limits v).trimmed
  simp only [start, emissions, List.reverse_nil, List.filterMap_nil, List.length_nil,
    Nat.zero_add] at hcount
  simp only [emissions] at htags
  omega

theorem result_run (hmask : mask.Total) {v : Value} (hv : v.Plain) (root : Text)
    (limits : Limits) :
    (run mask root limits v).result = .ok (run mask root limits v).tags := by
  simp only [result, (run_advances hmask hv root limits).fault]

-- In a walk with tags enough the visits are counted as its events tell.
theorem arrivals_run (hmask : mask.Total) {v : Value} (hv : v.Plain) {limits : Limits}
    (htags : (v.nodes.length : Int) < limits.maxTags) :
    (run mask root limits v).arrivals =
      visitCounts 0 (eventsOf mask limits.maxDepth root v.nodes) := by
  rw [(run_advances hmask hv root limits).arrivals (late_run_eq_false htags), Value.nodes,
    eventsOf_nodesAt Mask.admits_nil (Nat.zero_le _)]
  rfl

theorem run_trimmed_iff (hmask : mask.Total) {v : Value} (hv : v.Plain) (limits : Limits) :
    (run mask root limits v).trimmed = true ↔
      ∃ set ∈ visitCounts 0 (eventsOf mask limits.maxDepth root v.nodes),
        limits.maxTags - 1 ≤ set := by
  have hleft : (start (ε := ε) limits).left = (limits.maxTags - 1).toNat := rfl
  rw [(run_advances hmask hv root limits).trimmed, hleft]
  simp only [start, late, Bool.false_or, List.any_eq_true, decide_eq_true_eq]
  exact exists_congr fun set => and_congr_right fun _ => by omega

-- A walk with fewer tags follows the one with tags enough up to its last tag and then
-- only sets the marker, which it does if any visit of the other comes after that.
theorem run_follows_unlimited (hmask : mask.Total) {v : Value} (hv : v.Plain) (root : Text)
    (maxDepth maxTags unlimited : Int) (hunlimited : (v.nodes.length : Int) < unlimited) :
    let full := run mask root ⟨maxDepth, unlimited⟩ v
    let walk := run mask root ⟨maxDepth, maxTags⟩ v
    walk.emissions = full.emissions.take (maxTags - 1).toNat ∧
    (Steps root (start ⟨maxDepth, maxTags⟩) walk ∧
      ∀ early, Steps root (start ⟨maxDepth, maxTags⟩) early → early.trimmed = true →
        Steps root early walk → walk.emissions = early.emissions) ∧
    ∃ tags, (Tagging.ofValue mask ⟨maxDepth, maxTags⟩ root v).tags = .ok tags ∧
      (Ordered.get? Tag.trimmedName tags = some .marker ↔
        maxTags ≤ 1 ∨ ∃ set ∈ full.arrivals, maxTags - 1 ≤ set) ∧
      (tags.length : Int) ≤ max 1 maxTags := by
  intro full walk
  have hfull := run_advances hmask hv root ⟨maxDepth, unlimited⟩
  have hwalk := run_advances hmask hv root ⟨maxDepth, maxTags⟩
  have hcomplete := hfull.complete (late_run_eq_false hunlimited)
  have htags : (Tagging.ofValue mask ⟨maxDepth, maxTags⟩ root v).tags = .ok walk.tags := by
    simp only [Tagging.tags, Tagging.ofValue, result, hwalk.fault, walk]
  refine ⟨?_, ⟨run_steps _ _, ?_⟩, walk.tags, htags, ?_, length_tags_run_le _ _⟩
  · rw [show full.emissions = _ from hfull.emissions, List.take_of_length_le hcomplete]
    exact hwalk.emissions
  · intro early hearly htrimmed hlater
    exact hearly.emissions_eq_of_trimmed htrimmed hlater
  · have harrivals : full.arrivals = _ := arrivals_run hmask hv hunlimited
    have hroot : 0 ∈ full.arrivals := List.mem_cons_self
    rw [get?_tags_eq_marker_iff, run_trimmed_iff hmask hv, ← harrivals]
    constructor
    · exact Or.inr
    · rintro (hfew | hlate)
      · exact ⟨0, hroot, by push_cast; omega⟩
      · exact hlate

-- The empty list comes after the last tag that may be set, so the marker is set.
theorem run_follows_unlimited_empty_list :
    let v : Value := .object
      [("a", .scalar (.int 1)), ("b", .list [.scalar (.bool true)]), ("c", .list [])]
    (Mask.refusing [] []).Total ∧ v.Plain ∧ v.nodes.length < 9 ∧
      (run (Mask.refusing [] []) "r" ⟨10, 3⟩ v).emissions =
        ([("r.a", "1"), ("r.b.0", "true")] : List (Text × Text)) ∧
      ∃ tags, (Tagging.ofValue (Mask.refusing [] []) ⟨10, 3⟩ "r" v).tags = .ok tags ∧
        Ordered.get? Tag.trimmedName tags = some .marker ∧ tags.length ≤ 3 := by
  intro v
  have hmask := Mask.refusing_total []
  have hv : v.Plain := by
    simp only [v, Value.plain_object_iff, Value.plain_list_iff, Value.plain_scalar_iff,
      List.mem_cons, List.not_mem_nil, or_false, forall_eq_or_imp, forall_eq]
    exact ⟨by decide +kernel, trivial, by simp⟩
  have hnodes : v.nodes.length < 9 := by decide
  obtain ⟨htake, -, tags, htags, hmarker, hlen⟩ :=
    run_follows_unlimited hmask hv "r" 10 3 9 (by exact_mod_cast hnodes)
  refine ⟨hmask, hv, hnodes, ?_, tags, htags, ?_, by omega⟩
  · rw [htake]
    decide +kernel
  · exact hmarker.mpr (.inr ⟨2, by decide +kernel, by decide⟩)

end SpanTags.Walk
