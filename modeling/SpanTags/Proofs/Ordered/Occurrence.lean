import SpanTags.Proofs.Ordered
import Mathlib.Data.List.Basic

namespace SpanTags.Ordered

variable {κ : Type} [BEq κ] [LawfulBEq κ] {keys keys' : List κ} {key other : κ}

-- The keys that are left stand in the order in which they came first.
theorem pairwise_idxOf_eraseDups (keys : List κ) :
    keys.eraseDups.Pairwise fun key other => keys.idxOf key < keys.idxOf other := by
  induction keys using List.reverseRecOn with
  | nil => exact List.Pairwise.nil
  | append_singleton front key ih =>
      have hfront : front.eraseDups.Pairwise fun first other =>
          (front ++ [key]).idxOf first < (front ++ [key]).idxOf other := by
        refine ih.imp_of_mem fun hfirst hother hlt => ?_
        rw [List.mem_eraseDups] at hfirst hother
        rwa [List.idxOf_append_of_mem hfirst, List.idxOf_append_of_mem hother]
      rw [List.eraseDups_append]
      by_cases hkey : key ∈ front
      · simpa [List.removeAll, hkey] using hfront
      · have hlast : [key].removeAll front = [key] := by simp [List.removeAll, hkey]
        rw [hlast, List.pairwise_append]
        refine ⟨hfront, List.pairwise_singleton _ _, ?_⟩
        intro first hfirst other hother
        rw [List.mem_eraseDups] at hfirst hother
        obtain rfl := List.mem_singleton.mp hother
        rw [List.idxOf_append_of_mem hfirst, List.idxOf_append_of_notMem hkey]
        exact Nat.lt_add_right _ (List.idxOf_lt_length_iff.mpr hfirst)

theorem mem_of_idxOf_lt (h : keys.idxOf key < keys.idxOf other) : key ∈ keys :=
  List.idxOf_lt_length_iff.mp (Nat.lt_of_lt_of_le h List.idxOf_le_length)

theorem idxOf_lt_of_eraseDups (h : keys.eraseDups.idxOf key < keys.eraseDups.idxOf other) :
    keys.idxOf key < keys.idxOf other := by
  have hkey : key ∈ keys.eraseDups := mem_of_idxOf_lt h
  by_cases hother : other ∈ keys.eraseDups
  · have hpair := List.pairwise_iff_getElem.mp (pairwise_idxOf_eraseDups keys) _ _
      (List.idxOf_lt_length_iff.mpr hkey) (List.idxOf_lt_length_iff.mpr hother) h
    rwa [List.getElem_idxOf, List.getElem_idxOf] at hpair
  · -- a key that never comes counts as one after all the others
    rw [List.mem_eraseDups] at hkey hother
    rw [List.idxOf_eq_length_iff.mpr hother]
    exact List.idxOf_lt_length_iff.mpr hkey

theorem idxOf_eraseDups_lt_iff :
    keys.eraseDups.idxOf key < keys.eraseDups.idxOf other ↔ keys.idxOf key < keys.idxOf other := by
  refine ⟨idxOf_lt_of_eraseDups, fun h => ?_⟩
  have hkey : key ∈ keys.eraseDups := List.mem_eraseDups.mpr (mem_of_idxOf_lt h)
  rcases Nat.lt_trichotomy (keys.eraseDups.idxOf key) (keys.eraseDups.idxOf other)
    with hlt | heq | hgt
  · exact hlt
  · rw [(List.idxOf_inj hkey).mp heq] at h
    exact absurd h (Nat.lt_irrefl _)
  · exact absurd (idxOf_lt_of_eraseDups hgt) (Nat.lt_asymm h)

-- The same is left of two lists exactly if they have the same keys and any two of these come
-- first in the same order.
theorem eraseDups_eq_iff :
    keys.eraseDups = keys'.eraseDups ↔ (∀ key, key ∈ keys ↔ key ∈ keys') ∧
      ∀ key other, keys.idxOf key < keys.idxOf other ↔ keys'.idxOf key < keys'.idxOf other := by
  constructor
  · intro h
    refine ⟨fun key => ?_, fun key other => ?_⟩
    · rw [← List.mem_eraseDups, h, List.mem_eraseDups]
    · rw [← idxOf_eraseDups_lt_iff, h, idxOf_eraseDups_lt_iff]
  · rintro ⟨hmem, horder⟩
    have hperm : keys.eraseDups.Perm keys'.eraseDups := by
      rw [List.perm_ext_iff_of_nodup (nodup_eraseDups keys) (nodup_eraseDups keys')]
      intro key
      rw [List.mem_eraseDups, hmem, List.mem_eraseDups]
    have hpairs' : keys'.eraseDups.Pairwise fun key other => keys.idxOf key < keys.idxOf other :=
      (pairwise_idxOf_eraseDups keys').imp fun hlt => (horder _ _).mpr hlt
    refine hperm.eq_of_pairwise ?_ (pairwise_idxOf_eraseDups keys) hpairs'
    exact fun key other _ _ hlt hgt => absurd hgt (Nat.lt_asymm hlt)

theorem eraseDups_replicate_append {rest : List κ} (h : key ∉ rest) (more : Nat) :
    (List.replicate (more + 1) key ++ rest).eraseDups = key :: rest.eraseDups := by
  have hrest : rest.filter (fun other => !other == key) = rest := by
    refine List.filter_eq_self.mpr fun other hother => ?_
    have hne : other ≠ key := fun heq => h (heq ▸ hother)
    simp [hne]
  rw [List.replicate_succ, List.cons_append, List.eraseDups_cons, List.filter_append, hrest]
  simp

theorem eraseDups_flatMap_replicate {times : κ → Nat} (hkeys : keys.Nodup)
    (htimes : ∀ key ∈ keys, times key ≠ 0) :
    (keys.flatMap fun key => List.replicate (times key) key).eraseDups = keys := by
  induction keys with
  | nil => rfl
  | cons key rest ih =>
      obtain ⟨hkey, hrest⟩ := List.nodup_cons.mp hkeys
      obtain ⟨hfirst, hothers⟩ := List.forall_mem_cons.mp htimes
      obtain ⟨more, hmore⟩ := Nat.exists_eq_succ_of_ne_zero hfirst
      have hnew : key ∉ rest.flatMap fun other => List.replicate (times other) other := by
        intro hmem
        obtain ⟨other, hother, hin⟩ := List.mem_flatMap.mp hmem
        exact hkey (List.eq_of_mem_replicate hin ▸ hother)
      rw [List.flatMap_cons, hmore, eraseDups_replicate_append hnew, ih hrest hothers]

end SpanTags.Ordered
