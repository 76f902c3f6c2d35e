import SpanTags.Proofs.Json.Reading
import SpanTags.Proofs.Tag.Path
import SpanTags.Proofs.Walk.Places
import SpanTags.Proofs.Walk.Selection
import SpanTags.Proofs.Walk.Trimming

namespace SpanTags

namespace Walk

variable {ε : Type} {mask : Mask ε} {root : Text} {limits : Limits} {v : Value}

-- There is no marker in place of all tags, unless the marker is the only one that may be.
theorem tags_run_eq_nil (htags : 2 ≤ limits.maxTags)
    (h : (run mask root limits v).emissions = []) : (run mask root limits v).tags = [] := by
  have hsteps : Steps root (start limits) (run mask root limits v) := run_steps limits v
  have hcount := hsteps.emissions_length_add_left
  have hleft : (start (ε := ε) limits).left = (limits.maxTags - 1).toNat := rfl
  have hstart : (start (ε := ε) limits).emissions = [] := rfl
  have htrimmed : (run mask root limits v).trimmed = false := by
    rw [← Bool.not_eq_true]
    intro ht
    rw [hsteps.left_eq_zero_of_trimmed ht, h, hstart, hleft] at hcount
    simp only [List.length_nil] at hcount
    omega
  rw [tags_eq, htrimmed, textTags, h]
  rfl

theorem tags_run_scalar {s : Scalar} (hs : s.IsPlain) (htags : 2 ≤ limits.maxTags) :
    (run mask root limits (.scalar s)).tags = [(root, .text (s.tagText (Tag.ownKey root [])))] := by
  have hleft : (start (ε := ε) limits).left ≠ 0 := by
    simp only [start]
    omega
  rw [run, visit_scalar hs, if_neg hleft, Tag.path_nil]
  rfl

variable {filter : Option Text} {set : RuleSet}

-- Every tag of a container comes from a place below it that a rule agrees with.
theorem agrees_of_mem_places (h : RuleSet.ofOption filter = .ok set) (hv : v.Plain)
    (hc : v.isContainer = true) (hdepth : 1 ≤ limits.maxDepth) {node : Node}
    (hn : node ∈ places set.mask limits v) :
    node.keys ≠ [] ∧ ∃ rule ∈ set.rules, rule ≠ [] ∧ Rule.Agrees rule node.keys := by
  obtain ⟨⟨hadmits, -⟩, hcut⟩ := tagged_of_mem_places hn
  have hnode : node ∈ v.nodes := (places_sublist set.mask limits v).subset hn
  have hway : node.way ≠ [] := by
    intro hway
    rcases hv.way_eq_concat [] node hnode with rfl | ⟨-, between, key, hconcat, -⟩
    · -- the root is no deeper than the limit, so it is not cut off
      have hroot : limits.maxDepth ≤ 0 := hcut hc
      omega
    · simp [hway] at hconcat
  obtain ⟨rule, hrule, -, hagrees⟩ := (RuleSet.admits_mask_way_iff h hv hnode hway).mp hadmits
  refine ⟨fun hkeys => hway (List.map_eq_nil_iff.mp hkeys), rule, hrule, ?_, hagrees⟩
  exact fun hnil => RuleSet.nil_notMem_rules h (hnil ▸ hrule)

theorem exists_place_of_mem_tags (hmask : mask.Total) (hv : v.Plain) {tag : Text × TagValue}
    (htag : tag ∈ (run mask root limits v).tags) (hmarker : tag.2 ≠ .marker) :
    ∃ node ∈ places mask limits v, tag.1 = Tag.path root node.keys := by
  obtain ⟨emission, hemission, rfl⟩ := mem_emissions_of_mem_tags htag hmarker
  have hpath := List.mem_map_of_mem (f := Prod.fst) hemission
  rw [paths_run hmask hv] at hpath
  obtain ⟨node, hn, hnode⟩ := List.mem_map.mp hpath
  exact ⟨node, hn, hnode.symm⟩

theorem emissions_run_of_places_eq_nil (hmask : mask.Total) (hv : v.Plain)
    (h : places mask limits v = []) : (run mask root limits v).emissions = [] := by
  have hpaths : (run mask root limits v).emissions.map Prod.fst = _ := paths_run hmask hv root
  rw [h, List.map_nil] at hpaths
  exact List.map_eq_nil_iff.mp hpaths

end Walk

namespace Body

open Walk

variable {nestingLimit : Nat}

theorem tags_tag {ε : Type} {mask : Mask ε} (hmask : mask.Total) {body contentType v : Value}
    (hjson : isJson contentType = true) (hbody : decode nestingLimit body = .ok v)
    (limits : Limits) (root : Text) :
    (tag nestingLimit mask limits root body contentType).tags =
      .ok (run mask root limits v).tags := by
  have hv : v.Decoded := Json.decoded_of_readBody hbody
  simp only [tag, hjson, if_true, hbody, Tagging.tags, Tagging.ofValue, result_run hmask hv.plain]

-- What the rules do not speak of is not tagged, if the document is a container. One that is
-- a single scalar is tagged whatever the rules are, since the mask is not asked about it.
theorem tags_tag_agree {filter : Option Text} {set : RuleSet}
    (h : RuleSet.ofOption filter = .ok set) {body contentType v : Value}
    (hjson : isJson contentType = true) (hbody : decode nestingLimit body = .ok v) (root : Text)
    (limits : Limits) (hdepth : 1 ≤ limits.maxDepth) (htags : 2 ≤ limits.maxTags) :
    ∃ tags, (tag nestingLimit set.mask limits root body contentType).tags = .ok tags ∧
      (v.isContainer = true →
        (∀ entry ∈ tags, entry.2 ≠ .marker → ∃ node ∈ v.nodes,
          entry.1 = Tag.path root node.keys ∧ node.keys ≠ [] ∧
            ∃ rule ∈ set.rules, rule ≠ [] ∧ Rule.Agrees rule node.keys) ∧
        (set.rules = [] → tags = [])) ∧
      ∀ s, v = .scalar s → tags = [(root, .text (s.tagText (Tag.ownKey root [])))] := by
  have hv : v.Plain := (Json.decoded_of_readBody hbody).plain
  refine ⟨_, tags_tag set.mask_total hjson hbody limits root, fun hc => ⟨?_, ?_⟩, ?_⟩
  · intro entry hentry hmarker
    obtain ⟨node, hn, hpath⟩ := exists_place_of_mem_tags set.mask_total hv hentry hmarker
    exact ⟨node, (places_sublist set.mask limits v).subset hn, hpath,
      agrees_of_mem_places h hv hc hdepth hn⟩
  · intro hrules
    have hplaces : places set.mask limits v = [] := by
      refine List.eq_nil_iff_forall_not_mem.mpr fun node hn => ?_
      obtain ⟨-, rule, hrule, -⟩ := agrees_of_mem_places h hv hc hdepth hn
      rw [hrules] at hrule
      contradiction
    exact tags_run_eq_nil htags (emissions_run_of_places_eq_nil set.mask_total hv hplaces)
  · rintro s rfl
    exact tags_run_scalar (Value.plain_scalar_iff.mp hv) htags

theorem tags_tag_agree_user :
    let body : Value := .text
      "\x7b\"user\": \x7b\"name\": \"ann\", \"pin\": 7\x7d, \"items\": [true]\x7d"
    let v : Value := .object
      [("user", .object [("name", .text "ann"), ("pin", .int 7)]), ("items", .list [.bool true])]
    let set : RuleSet := ⟨["user.name", "*.0.id"],
      [[.literal "user", .literal "name"], [.wildcard, .literal "0", .literal "id"]]⟩
    RuleSet.ofOption (some "user.name,*.0.id") = .ok set ∧ decode 990 body = .ok v ∧
      isJson (.text "application/json") = true ∧
      (tag 990 set.mask ⟨10, 758⟩ "r" body (.text "application/json")).tags =
        .ok [("r.user.name", .text "ann")] ∧
      ∃ node ∈ v.nodes, "r.user.name" = Tag.path "r" node.keys ∧ node.keys ≠ [] ∧
        ∃ rule ∈ set.rules, rule ≠ [] ∧ Rule.Agrees rule node.keys := by
  intro body v set
  have hset : RuleSet.ofOption (some "user.name,*.0.id") = .ok set := rfl
  have hbody : decode 990 body = .ok v := by cbv
  have hjson : isJson (.text "application/json") = true := by decide
  have hrun : (tag 990 set.mask ⟨10, 758⟩ "r" body (.text "application/json")).tags =
      .ok [("r.user.name", .text "ann")] := by
    decide +kernel
  obtain ⟨tags, htags, hcontainer, -⟩ :=
    tags_tag_agree hset hjson hbody "r" ⟨10, 758⟩ (by decide) (by decide)
  obtain rfl := Except.ok.inj (hrun.symm.trans htags)
  exact ⟨hset, hbody, hjson, hrun, (hcontainer rfl).1 _ List.mem_cons_self (by decide)⟩

-- No rules, and a tag all the same.
theorem tags_tag_scalar_without_rules :
    let set : RuleSet := ⟨[], []⟩
    RuleSet.ofOption (some "") = .ok set ∧ decode 990 (.text "5") = .ok (.int 5) ∧
      (tag 990 set.mask ⟨10, 758⟩ "p" (.text "5") (.text "application/json")).tags =
        .ok [("p", .text "5")] := by
  intro set
  exact ⟨rfl, by cbv, by decide +kernel⟩

end Body

end SpanTags
