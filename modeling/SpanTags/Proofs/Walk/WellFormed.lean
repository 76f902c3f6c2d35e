import SpanTags.Proofs.Number.Decimal
import SpanTags.Proofs.Text.WellFormed
import SpanTags.Proofs.Walk.Inclusion

namespace SpanTags

section Text

variable {t u : Text}

theorem Text.WellFormed.of_subset (h : t.WellFormed) (hsub : u ⊆ t) : u.WellFormed :=
  fun c hc => h c (hsub hc)

theorem Text.IsDecimal.wellFormed (h : t.IsDecimal) : t.WellFormed := by
  have hmarks : ("+-.e" : Text).WellFormed := wellFormed_ofString _
  intro c hc
  rcases h.isDigit_or_mem c hc with hdigit | hmark
  · simp only [CodePoint.isDigit, CodePoint.isSurrogate, CodePoint.within, Bool.and_eq_true,
      Bool.and_eq_false_iff, decide_eq_true_eq, decide_eq_false_iff_not] at hdigit ⊢
    omega
  · exact hmarks c hmark

theorem Double.wellFormed_text (x : Double) : x.text.WellFormed := by
  cases x with
  | nan => exact Text.wellFormed_ofString "nan"
  | infinite negative => cases negative <;> decide
  | finite negative magnitude => exact ((isDecimal_text_iff _).mpr rfl).wellFormed

-- Only a text can bring half of a surrogate pair into its tag.
theorem Scalar.wellFormed_tagText {s : Scalar} (h : ∀ t, s = .text t → t.WellFormed)
    (key : Text) : (s.tagText key).WellFormed := by
  cases s with
  | null => exact Text.wellFormed_ofString "null"
  | bool b => cases b <;> exact Text.wellFormed_ofString _
  | int n => exact (Text.isDecimal_ofInt n).wellFormed
  | float x =>
      show (Tag.floatText x).WellFormed
      unfold Tag.floatText
      split
      · split
        · exact (Text.isDecimal_ofInt _).wellFormed
        · exact x.wellFormed_text
      · exact x.wellFormed_text
  | text t =>
      show (if key ∈ Redaction.keys then ("redacted" : Text) else t.take 5000).WellFormed
      split
      · exact Text.wellFormed_ofString "redacted"
      · exact (h t rfl).of_subset (List.take_subset 5000 t)
  | bytes b => exact Text.wellFormed_nil

theorem Tag.wellFormed_path {root : Text} {keys : List Text} (hroot : root.WellFormed)
    (hkeys : ∀ key ∈ keys, key.WellFormed) : (path root keys).WellFormed := by
  have hescaped : ∀ key : Text, key.WellFormed → (escapeKey key).WellFormed := by
    intro key hkey
    rw [escapeKey, Text.wellFormed_flatMap_iff]
    intro c hc
    split <;> simp [hkey c hc]
  rw [path, Text.wellFormed_append_iff, Text.wellFormed_flatMap_iff]
  refine ⟨hroot, fun key hkey => ?_⟩
  exact Text.wellFormed_cons_iff.mpr
    ⟨CodePoint.isSurrogate_ofChar '.', hescaped key (hkeys key hkey)⟩

end Text

-- No key and no text of the payload has half of a surrogate pair in it.
def Value.WellFormed (v : Value) : Prop :=
  ∀ node ∈ v.nodes, (∀ key ∈ node.keys, key.WellFormed) ∧
    ∀ t, node.value = .scalar (.text t) → t.WellFormed

def TagValue.WellFormed : TagValue → Prop
  | .text t => t.WellFormed
  | .marker => True

instance : (value : TagValue) → Decidable value.WellFormed
  | .text t => inferInstanceAs (Decidable t.WellFormed)
  | .marker => .isTrue trivial

-- Tags that can all be encoded.
def Tags.WellFormed (tags : Tags) : Prop :=
  ∀ tag ∈ tags, tag.1.WellFormed ∧ tag.2.WellFormed

instance (tags : Tags) : Decidable tags.WellFormed :=
  inferInstanceAs (Decidable (∀ tag ∈ tags, tag.1.WellFormed ∧ tag.2.WellFormed))

namespace Walk

variable {ε : Type} {mask : Mask ε} {root : Text} {limits : Limits} {v : Value}

-- Every tag is that of a place in the payload.
theorem exists_outcome_of_mem_emissions (hmask : mask.Total) (hv : v.Plain)
    {emission : Text × Text} (h : emission ∈ (run mask root limits v).emissions) :
    ∃ node ∈ v.nodes, node.outcome limits.maxDepth root = some emission := by
  obtain ⟨node, hn, houtcome⟩ :=
    exists_of_forall₂ (forall₂_places_emissions hmask hv root).flip h
  exact ⟨node, (places_sublist mask limits v).subset hn, houtcome⟩

theorem wellFormed_of_outcome (hroot : root.WellFormed) {maxDepth : Int} {node : Node}
    (hkeys : ∀ key ∈ node.keys, key.WellFormed)
    (htext : ∀ t, node.value = .scalar (.text t) → t.WellFormed) {emission : Text × Text}
    (h : node.outcome maxDepth root = some emission) :
    emission.1.WellFormed ∧ emission.2.WellFormed := by
  have hpath := Tag.wellFormed_path hroot hkeys
  unfold Node.outcome at h
  split at h
  · rename_i s hs
    obtain rfl := Option.some.inj h
    refine ⟨hpath, Scalar.wellFormed_tagText (fun t ht => ?_) _⟩
    exact htext t (by rw [hs, ht])
  · split at h
    · obtain rfl := Option.some.inj h
      exact ⟨hpath, Text.wellFormed_ofString "truncated"⟩
    · contradiction

-- Nothing is tagged that cannot be encoded, unless the payload has it.
theorem wellFormed_tags_run (hmask : mask.Total) (hv : v.Plain) (hwell : v.WellFormed)
    (hroot : root.WellFormed) : Tags.WellFormed (run mask root limits v).tags := by
  intro tag htag
  rcases mem_tags_cases htag with rfl | ⟨emission, hemission, rfl⟩
  · exact ⟨Text.wellFormed_ofString _, trivial⟩
  · obtain ⟨node, hn, houtcome⟩ := exists_outcome_of_mem_emissions hmask hv hemission
    obtain ⟨hkeys, htext⟩ := hwell node hn
    exact wellFormed_of_outcome hroot hkeys htext houtcome

end Walk

theorem Body.wellFormed_tags_tag {ε : Type} {mask : Mask ε} (hmask : mask.Total) {limits : Limits}
    {root : Text} {nestingLimit : Nat} {body contentType : Value} {tags : Tags}
    (hwell : ∀ v, decode nestingLimit body = .ok v → v.WellFormed) (hroot : root.WellFormed)
    (h : (tag nestingLimit mask limits root body contentType).tags = .ok tags) :
    tags.WellFormed := by
  by_cases hjson : isJson contentType = true
  · cases hbody : decode nestingLimit body with
    | ok v =>
        have hv : v.Plain := (Json.decoded_of_readBody hbody).plain
        rw [tags_tag hmask hjson hbody] at h
        obtain rfl := Except.ok.inj h
        exact Walk.wellFormed_tags_run hmask hv (hwell v hbody) hroot
    | error fault =>
        simp only [tag, hjson, if_true, hbody] at h
        obtain rfl : [] = tags := Except.ok.inj h
        exact List.forall_mem_nil _
  · simp only [tag, hjson] at h
    obtain rfl : [] = tags := Except.ok.inj h
    exact List.forall_mem_nil _

end SpanTags
