import SpanTags.Proofs.Number.Whole
import SpanTags.Proofs.Payload.Nodes
import Mathlib.Data.List.Nodup

namespace SpanTags

namespace Value

-- What a document decodes to: plain scalars, lists, and dictionaries whose keys are
-- texts, each of them there once.
inductive Decoded : Value → Prop
  | scalar {s : Scalar} (hs : s.IsPlain) : Decoded (.scalar s)
  | list {items : List Value} (h : ∀ v ∈ items, Decoded v) : Decoded (.list items)
  | object {entries : List (Text × Value)} (hkeys : (entries.map Prod.fst).Nodup)
      (h : ∀ entry ∈ entries, Decoded entry.2) : Decoded (.object entries)

theorem Decoded.plain {v : Value} (hv : v.Decoded) : v.Plain := by
  induction hv with
  | scalar hs => exact .scalar hs
  | list _ ih => exact .list ih
  | object _ _ ih => exact .object ih

@[simp] theorem decoded_scalar_iff {s : Scalar} : (scalar s).Decoded ↔ s.IsPlain :=
  ⟨fun h => by cases h; assumption, .scalar⟩

@[simp] theorem decoded_list_iff {items : List Value} :
    (list items).Decoded ↔ ∀ v ∈ items, v.Decoded :=
  ⟨fun h => by cases h; assumption, .list⟩

theorem object_injective : Function.Injective object := by
  intro entries entries' h
  rw [← children_object entries, h, children_object]

@[simp] theorem decoded_object_iff {entries : List (Text × Value)} :
    (object entries).Decoded ↔
      (entries.map Prod.fst).Nodup ∧ ∀ entry ∈ entries, entry.2.Decoded := by
  refine ⟨fun h => ?_, fun h => .object h.1 h.2⟩
  generalize hv : object entries = v at h
  cases h with
  | scalar hs => cases hv
  | list h => cases hv
  | object hkeys h =>
      cases object_injective hv
      exact ⟨hkeys, h⟩

theorem le_of_mem_numbered {place : Nat} {items : List Value} {key : Text}
    (h : key ∈ (numbered place items).map Prod.fst) : ∃ n, place ≤ n ∧ key = Text.ofNat n := by
  induction items generalizing place with
  | nil => contradiction
  | cons v rest ih =>
      rcases List.mem_cons.mp h with rfl | h
      · exact ⟨place, Nat.le_refl _, rfl⟩
      · obtain ⟨n, hn, hkey⟩ := ih h
        exact ⟨n, by omega, hkey⟩

theorem nodup_map_fst_numbered (place : Nat) (items : List Value) :
    ((numbered place items).map Prod.fst).Nodup := by
  induction items generalizing place with
  | nil => exact List.nodup_nil
  | cons v rest ih =>
      refine List.nodup_cons.mpr ⟨fun h => ?_, ih (place + 1)⟩
      obtain ⟨n, hn, hkey⟩ := le_of_mem_numbered h
      have hplace := Text.ofNat_injective hkey
      omega

theorem Decoded.nodup_children {v : Value} (hv : v.Decoded) : (v.children.map Prod.fst).Nodup := by
  cases hv with
  | scalar hs => exact List.nodup_nil
  | list h => exact nodup_map_fst_numbered 0 _
  | object hkeys h => rwa [children_object]

theorem Decoded.children {v : Value} (hv : v.Decoded) : ∀ child ∈ v.children, child.2.Decoded := by
  intro child hchild
  cases hv with
  | scalar hs => contradiction
  | list h => exact h _ (mem_of_mem_numbered hchild)
  | object hkeys h =>
      rw [children_object] at hchild
      exact h _ hchild

theorem Plain.prefix_keys {v : Value} (hv : v.Plain) {way : List (Text × Value)} {node : Node}
    (hn : node ∈ nodesAt way v) : way.map Prod.fst <+: node.keys :=
  (hv.way_prefix way node hn).map Prod.fst

-- No two places of a decoded payload have the same keys.
theorem Decoded.nodup_keys_nodesAt {v : Value} (hv : v.Decoded) (way : List (Text × Value)) :
    ((nodesAt way v).map Node.keys).Nodup := by
  refine Plain.induction (motive := fun v => v.Decoded → ∀ way,
    ((nodesAt way v).map Node.keys).Nodup) ?_ ?_ hv.plain hv way
  · intro s _ _ way
    exact List.nodup_singleton _
  · intro v hplain _ ih hv way
    have hbelow : ∀ child ∈ v.children, ∀ keys ∈ (nodesAt (way ++ [child]) child.2).map Node.keys,
        way.map Prod.fst ++ [child.1] <+: keys := by
      intro child hchild keys hkeys
      obtain ⟨node, hn, rfl⟩ := List.mem_map.mp hkeys
      simpa using (hplain.children child hchild).prefix_keys hn
    rw [nodesAt_eq, List.map_cons, nodesBelow, List.map_flatMap, List.nodup_cons,
      List.nodup_flatMap]
    refine ⟨?_, fun child hchild => ih child hchild (hv.children child hchild) _, ?_⟩
    · intro hself
      obtain ⟨child, hchild, hkeys⟩ := List.mem_flatMap.mp hself
      have hlen := (hbelow child hchild _ hkeys).length_le
      simp only [Node.keys, List.length_append, List.length_map, List.length_singleton] at hlen
      omega
    · refine (List.pairwise_map.mp hv.nodup_children).imp_of_mem ?_
      intro child other hchild hother hne keys hkeys hkeys'
      -- both keys come right after the way above
      have hsame := List.prefix_of_prefix_length_le (hbelow child hchild keys hkeys)
        (hbelow other hother keys hkeys') (by simp)
      rw [List.prefix_append_right_inj] at hsame
      exact hne (List.cons_prefix_cons.mp hsame).1

end Value

end SpanTags
