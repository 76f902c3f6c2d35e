import SpanTags.Proofs.Payload.Decoded
import SpanTags.Proofs.Rule.Semantics
import SpanTags.Proofs.Tag.Path
import SpanTags.Proofs.Walk.Places
import SpanTags.Proofs.Walk.Trimming

namespace SpanTags.Walk

section Texts

variable {ε : Type} {walk : Walk ε}

-- The marker stands beside the texts, if it does not take the place of one.
theorem filter_tags_ne_marker
    (h : walk.trimmed = true → Tag.trimmedName ∉ walk.emissions.map Prod.fst) :
    walk.tags.filter (·.2 ≠ .marker) = walk.textTags := by
  have htexts : walk.textTags.filter (·.2 ≠ .marker) = walk.textTags := by
    refine List.filter_eq_self.mpr fun tag htag => ?_
    obtain ⟨emission, -, rfl⟩ := mem_emissions_of_mem_textTags htag
    rfl
  rw [tags_eq]
  split
  · rename_i htrimmed
    have hnew : Tag.trimmedName ∉ walk.textTags.map Prod.fst := by
      intro hname
      obtain ⟨tag, htag, hname⟩ := List.mem_map.mp hname
      obtain ⟨emission, hemission, rfl⟩ := mem_emissions_of_mem_textTags htag
      exact h htrimmed (hname ▸ List.mem_map_of_mem hemission)
    rw [Ordered.put_of_notMem hnew, List.filter_append, htexts]
    exact List.append_nil _
  · exact htexts

theorem map_fst_texts (walk : Walk ε) :
    (walk.emissions.map (Prod.map id TagValue.text)).map Prod.fst =
      walk.emissions.map Prod.fst := by
  simp [Function.comp_def]

-- Each tag that was set is still there exactly if no two were set under one path.
theorem length_textTags_eq_iff :
    walk.textTags.length = walk.emissions.length ↔ (walk.emissions.map Prod.fst).Nodup := by
  rw [← map_fst_texts, ← Ordered.length_ofPairs_eq_iff, List.length_map]
  rfl

theorem textTags_of_nodup (h : (walk.emissions.map Prod.fst).Nodup) :
    walk.textTags = walk.emissions.map (Prod.map id TagValue.text) :=
  Ordered.ofPairs_of_nodup (by rwa [map_fst_texts])

end Texts

theorem nodup_keys_places {ε : Type} (mask : Mask ε) (limits : Limits) {v : Value}
    (hv : v.Decoded) : ((places mask limits v).map Node.keys).Nodup :=
  (hv.nodup_keys_nodesAt []).sublist ((places_sublist mask limits v).map Node.keys)

-- The tags of a decoded payload are set at different places, but two of the places have
-- one path if their keys are the same once joined. Then, and only then, a tag takes the
-- place of another. The marker does so only below a root with the name it begins with.
theorem nodup_paths_run_iff (set : RuleSet) {v : Value} (hv : v.Decoded) (root : Text)
    (limits : Limits) :
    let walk := run set.mask root limits v
    let paths := walk.emissions.map Prod.fst
    let keys := (places set.mask limits v).map Node.keys
    (Tagging.ofValue set.mask limits root v).tags = .ok walk.tags ∧
    paths = keys.map (Tag.path root) ∧ keys.Nodup ∧
    (paths.Nodup ↔ (keys.map Tag.joined).Nodup) ∧
    ((∀ place ∈ keys, Tag.Apart place) → paths.Nodup) ∧
    (Tag.trimmedName ∈ paths → root = Tag.trimmedName ∨ root = "_dd") ∧
    ((walk.trimmed = true → Tag.trimmedName ∉ paths) →
      ((walk.tags.filter (·.2 ≠ .marker)).length = walk.emissions.length ↔ paths.Nodup) ∧
      (paths.Nodup →
        walk.tags.filter (·.2 ≠ .marker) = walk.emissions.map (Prod.map id TagValue.text))) := by
  intro walk paths keys
  have hpaths : paths = keys.map (Tag.path root) := by
    rw [show paths = _ from paths_run set.mask_total hv.plain root, List.map_map]
    rfl
  have hkeys : keys.Nodup := nodup_keys_places set.mask limits hv
  have hnodup : paths.Nodup ↔ (keys.map Tag.joined).Nodup := by
    have hsame : ∀ place place', Tag.path root place = Tag.path root place' ↔
        Tag.joined place = Tag.joined place' := Tag.path_eq_path_iff root
    rw [hpaths]
    simp only [List.Nodup, List.pairwise_map, ne_eq, hsame, keys]
  refine ⟨result_run set.mask_total hv.plain root limits, hpaths, hkeys, hnodup, ?_, ?_, ?_⟩
  · intro hapart
    have hjoined : keys.map Tag.joined = keys :=
      (List.map_congr_left fun place hplace => Tag.joined_of_apart (hapart place hplace)).trans
        (List.map_id keys)
    rwa [hnodup, hjoined]
  · intro hname
    rw [hpaths] at hname
    obtain ⟨place, -, hplace⟩ := List.mem_map.mp hname
    exact Tag.root_of_path_eq_trimmedName hplace
  · intro hmarker
    rw [filter_tags_ne_marker hmarker]
    exact ⟨length_textTags_eq_iff, textTags_of_nodup⟩

-- Dots, empty keys, keys like places in a list and a backslash at the end of a leaf's key.
theorem nodup_paths_run_iff_hard_keys :
    let v : Value := .object
      [("a.b", .object [("", .list [.scalar (.int 1), .object [("0", .scalar (.text "x"))]])]),
        ("a", .object [("0\\", .scalar (.bool true)), ("b", .scalar .null)])]
    let set : RuleSet := ⟨["*"], [[.wildcard]]⟩
    v.Decoded ∧ RuleSet.parse "*" = .ok set ∧
      (run set.mask "r" ⟨9, 4⟩ v).emissions =
        ([("r.a\\.b..0", "1"), ("r.a\\.b..1.0", "x"), ("r.a.0\\", "true")] : List (Text × Text)) ∧
      (run set.mask "r" ⟨9, 4⟩ v).trimmed = true ∧
      ((run set.mask "r" ⟨9, 4⟩ v).emissions.map Prod.fst).Nodup ∧
      (run set.mask "r" ⟨9, 4⟩ v).tags.filter (·.2 ≠ .marker) =
        ([("r.a\\.b..0", .text "1"), ("r.a\\.b..1.0", .text "x"),
          ("r.a.0\\", .text "true")] : Tags) := by
  intro v set
  have hv : v.Decoded := by
    simp only [v, Value.decoded_object_iff, Value.decoded_list_iff, Value.decoded_scalar_iff,
      List.mem_cons, List.not_mem_nil, or_false, forall_eq_or_imp, forall_eq]
    decide +kernel
  have hrun : (run set.mask "r" ⟨9, 4⟩ v).emissions =
      ([("r.a\\.b..0", "1"), ("r.a\\.b..1.0", "x"), ("r.a.0\\", "true")] : List (Text × Text)) := by
    decide +kernel
  obtain ⟨-, hpaths, -, -, hapart, hname, htags⟩ := nodup_paths_run_iff set hv "r" ⟨9, 4⟩
  have hnodup := hapart (by decide +kernel)
  have hmarker : Tag.trimmedName ∉ (run set.mask "r" ⟨9, 4⟩ v).emissions.map Prod.fst :=
    fun h => absurd (hname h) (by decide)
  refine ⟨hv, rfl, hrun, by decide +kernel, hnodup, ?_⟩
  rw [(htags fun _ => hmarker).2 hnodup, hrun]
  rfl

-- The backslash that ends a key and the one before a dot within a key are told apart by
-- nothing.
theorem tags_run_backslash_collision :
    let v : Value := .object
      [("a\\", .object [("b", .scalar (.int 1))]), ("a.b", .scalar (.int 2))]
    let set : RuleSet := ⟨["*"], [[.wildcard]]⟩
    v.Decoded ∧ RuleSet.parse "*" = .ok set ∧
      (run set.mask "p" ⟨10, 758⟩ v).emissions =
        ([("p.a\\.b", "1"), ("p.a\\.b", "2")] : List (Text × Text)) ∧
      (Tagging.ofValue set.mask ⟨10, 758⟩ "p" v).tags = .ok [("p.a\\.b", .text "2")] := by
  intro v set
  have hv : v.Decoded := by
    simp only [v, Value.decoded_object_iff, Value.decoded_scalar_iff, List.mem_cons,
      List.not_mem_nil, or_false, forall_eq_or_imp, forall_eq]
    decide +kernel
  exact ⟨hv, rfl, by decide +kernel, by decide +kernel⟩

end SpanTags.Walk
