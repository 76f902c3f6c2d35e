import SpanTags.Proofs.Tag.Path
import SpanTags.Proofs.Walk.Trimming

namespace SpanTags

section Root

theorem Tag.prefix_path (root : Text) (keys : List Text) : root <+: path root keys := by
  rw [path_eq_append]
  exact List.prefix_append _ _

theorem Tag.path_queryPath (keys : List Text) :
    path queryPath keys = path requestPath (("query" : Text) :: keys) := by
  rw [path_eq_append queryPath, path_cons]
  rfl

-- Neither path is found below the other, so nothing below the one is below the other.
def Tag.Unrelated (path path' : Text) : Prop :=
  ¬path <+: path' ∧ ¬path' <+: path

instance (path path' : Text) : Decidable (Tag.Unrelated path path') :=
  inferInstanceAs (Decidable (_ ∧ _))

theorem Tag.Unrelated.ne {root root' name name' : Text} (h : Unrelated root root')
    (hname : root <+: name) (hname' : root' <+: name') : name ≠ name' := by
  rintro rfl
  exact (List.prefix_or_prefix_of_prefix hname hname').elim h.1 h.2

end Root

namespace Walk

variable {ε : Type} {root : Text} {walk later : Walk ε}

theorem Step.below (h : Step root walk later)
    (hwalk : ∀ emission ∈ walk.emissions, ∃ keys, emission.1 = Tag.path root keys) :
    ∀ emission ∈ later.emissions, ∃ keys, emission.1 = Tag.path root keys := by
  have hemit (keys : List Text) (text : Text) :
      ∀ emission ∈ (walk.emit (Tag.path root keys) (.ok text)).emissions,
        ∃ keys, emission.1 = Tag.path root keys := by
    rw [emissions_emit_ok, List.forall_mem_append, List.forall_mem_singleton]
    exact ⟨hwalk, keys, rfl⟩
  cases h with
  | asked keys isLast => rwa [emissions_asked]
  | entered keys => rwa [emissions_entered]
  | leaf keys s hleft =>
      cases Tag.leafText (Tag.ownKey root keys) s with
      | ok text => exact hemit keys text
      | error fault => exact hwalk
  | truncated keys hleft => exact hemit keys Tag.truncated
  | marked hleft => exact hwalk
  | failed fault => exact hwalk

-- Whatever is walked through, nothing is tagged that is not the root or below it.
theorem Steps.below {limits : Limits} (h : Steps root (start limits) walk) :
    ∀ emission ∈ walk.emissions, ∃ keys, emission.1 = Tag.path root keys := by
  induction h with
  | refl => exact List.forall_mem_nil _
  | tail _ step ih => exact step.below ih

theorem nodup_map_fst_tags (walk : Walk ε) : (walk.tags.map Prod.fst).Nodup := by
  have htexts : (walk.textTags.map Prod.fst).Nodup := Ordered.nodup_map_fst_ofPairs _
  rw [tags_eq]
  split
  · exact Ordered.nodup_map_fst_put htexts _ _
  · exact htexts

end Walk

-- What the tags of one payload have in common: none is there twice, each is the marker or
-- lies below the root, and there are no more than may be.
structure TagSet (limits : Limits) (root : Text) (tags : Tags) : Prop where
  nodup : (tags.map Prod.fst).Nodup
  below : ∀ tag ∈ tags,
    tag = (Tag.trimmedName, .marker) ∨ ∃ keys text, tag = (Tag.path root keys, .text text)
  length_le : (tags.length : Int) ≤ max 1 limits.maxTags

namespace TagSet

variable {limits limits' : Limits} {root root' : Text} {tags tags' : Tags}

theorem nil (limits : Limits) (root : Text) : TagSet limits root [] := by
  refine ⟨List.nodup_nil, List.forall_mem_nil _, ?_⟩
  simp only [List.length_nil]
  omega

theorem name_ne_nil (h : TagSet limits root tags) (hroot : root ≠ []) :
    ∀ tag ∈ tags, tag.1 ≠ [] := by
  intro tag htag
  rcases h.below tag htag with rfl | ⟨keys, text, rfl⟩
  · exact List.cons_ne_nil _ _
  · exact fun hnil => hroot (List.prefix_nil.mp (hnil ▸ Tag.prefix_path root keys))

-- The marker is the only name that tags below unrelated roots can share, and it has one
-- value.
theorem agree (h : TagSet limits root tags) (h' : TagSet limits' root' tags')
    (hroots : Tag.Unrelated root root') (hroot : Tag.Unrelated root Tag.trimmedName)
    (hroot' : Tag.Unrelated root' Tag.trimmedName) :
    ∀ tag ∈ tags, ∀ tag' ∈ tags', tag'.1 = tag.1 → tag'.2 = tag.2 := by
  intro tag htag tag' htag' hname
  rcases h.below tag htag with rfl | ⟨keys, text, rfl⟩
  · rcases h'.below tag' htag' with rfl | ⟨keys', text', rfl⟩
    · rfl
    · exact absurd hname (hroot'.ne (Tag.prefix_path root' keys') (List.prefix_refl _))
  · rcases h'.below tag' htag' with rfl | ⟨keys', text', rfl⟩
    · exact absurd hname.symm (hroot.ne (Tag.prefix_path root keys) (List.prefix_refl _))
    · exact absurd hname.symm
        (hroots.ne (Tag.prefix_path root keys) (Tag.prefix_path root' keys'))

end TagSet

namespace Tagging

variable {ε : Type}

-- The tags, of which a tagging that failed has none.
def tagSet (tagging : Tagging ε) : Tags :=
  match tagging.tags with
  | .ok tags => tags
  | .error _ => []

theorem tagSet_eq_nil_or (tagging : Tagging ε) :
    tagging.tagSet = [] ∨ tagging.tagSet = tagging.walk.tags := by
  unfold tagSet tags Walk.result
  split
  · rename_i hresult
    split at hresult
    · contradiction
    · exact .inr (Except.ok.inj hresult).symm
  · exact .inl rfl

theorem tagSet_ofValue (mask : Mask ε) (limits : Limits) (root : Text) (v : Value) :
    TagSet limits root (ofValue mask limits root v).tagSet := by
  rcases tagSet_eq_nil_or (ofValue mask limits root v) with hnil | htags
  · rw [hnil]
    exact .nil limits root
  · rw [htags]
    refine ⟨Walk.nodup_map_fst_tags _, fun tag htag => ?_, Walk.length_tags_run_le limits v⟩
    refine (Walk.mem_tags_cases htag).imp_right fun ⟨emission, hemission, heq⟩ => ?_
    obtain ⟨keys, hkeys⟩ := (Walk.run_steps limits v).below emission hemission
    exact ⟨keys, emission.2, by rw [heq, hkeys]⟩

end Tagging

theorem Body.tagSet_tag {ε : Type} (nestingLimit : Nat) (mask : Mask ε) (limits : Limits)
    (root : Text) (body contentType : Value) :
    TagSet limits root (tag nestingLimit mask limits root body contentType).tagSet := by
  unfold tag
  split
  · split
    · exact Tagging.tagSet_ofValue mask limits root _
    · exact .nil limits root
  · exact .nil limits root

end SpanTags
