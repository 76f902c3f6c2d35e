import SpanTags.Ordered
import Mathlib.Data.List.Induction
import Mathlib.Data.List.Nodup
import Mathlib.Data.List.Perm.Subperm

namespace SpanTags.Ordered

variable {κ ν : Type} [BEq κ]

section Apart

variable {key : κ} {entries pairs : List (κ × ν)}

-- No key counts as the same as one after it.
def Apart (entries : List (κ × ν)) : Prop :=
  (entries.map Prod.fst).Pairwise fun first second => (first == second) = false

theorem put_of_forall_ne (h : ∀ entry ∈ entries, (entry.1 == key) = false) (value : ν) :
    put key value entries = entries ++ [(key, value)] := by
  induction entries with
  | nil => rfl
  | cons entry rest ih =>
      obtain ⟨hentry, hrest⟩ := List.forall_mem_cons.mp h
      simp [put, hentry, ih hrest]

theorem map_fst_put_of_exists (h : ∃ entry ∈ entries, (entry.1 == key) = true) (value : ν) :
    (put key value entries).map Prod.fst = entries.map Prod.fst := by
  induction entries with
  | nil => simp at h
  | cons entry rest ih =>
      unfold put
      split
      · rfl
      · rename_i hentry
        obtain ⟨other, hother, hsame⟩ := h
        rcases List.mem_cons.mp hother with rfl | hother
        · exact absurd hsame hentry
        · rw [List.map_cons, List.map_cons, ih ⟨other, hother, hsame⟩]

theorem Apart.put (h : Apart entries) (key : κ) (value : ν) :
    Apart (put key value entries) := by
  by_cases hkey : ∃ entry ∈ entries, (entry.1 == key) = true
  · rwa [Apart, map_fst_put_of_exists hkey]
  · have hnew : ∀ entry ∈ entries, (entry.1 == key) = false := fun entry hentry =>
      eq_false_of_ne_true fun hsame => hkey ⟨entry, hentry, hsame⟩
    rw [Apart, put_of_forall_ne hnew, List.map_append, List.pairwise_append]
    refine ⟨h, List.pairwise_singleton _ _, ?_⟩
    simpa using hnew

theorem apart_ofPairs (pairs : List (κ × ν)) : Apart (ofPairs pairs) := by
  have hall : ∀ entries : List (κ × ν), Apart entries → Apart (putAll pairs entries) := by
    induction pairs with
    | nil => exact fun _ h => h
    | cons pair rest ih => exact fun entries h => ih _ (h.put pair.1 pair.2)
  exact hall [] List.Pairwise.nil

-- Entries whose keys are all new are only added at the end.
theorem putAll_of_apart (h : Apart (entries ++ pairs)) :
    putAll pairs entries = entries ++ pairs := by
  induction pairs generalizing entries with
  | nil => simp [putAll]
  | cons pair rest ih =>
      have hnew : ∀ entry ∈ entries, (entry.1 == pair.1) = false := by
        rw [Apart, List.map_append, List.map_cons, List.pairwise_append] at h
        exact fun entry hentry => h.2.2 _ (List.mem_map_of_mem hentry) _ List.mem_cons_self
      have hput : Ordered.put pair.1 pair.2 entries = entries ++ [pair] :=
        put_of_forall_ne hnew pair.2
      have hrest : putAll rest (entries ++ [pair]) = entries ++ [pair] ++ rest :=
        ih (by rwa [List.append_assoc])
      rw [List.append_assoc, List.singleton_append] at hrest
      simpa only [putAll, List.foldl_cons, hput] using hrest

theorem ofPairs_ofPairs (pairs : List (κ × ν)) : ofPairs (ofPairs pairs) = ofPairs pairs :=
  putAll_of_apart (apart_ofPairs pairs)

end Apart

section Map

variable {κ' ν' : Type} [BEq κ'] {f : κ → κ'}
  (hf : ∀ first second, (f first == f second) = (first == second))

include hf

theorem get?_map (g : ν → ν') (key : κ) (entries : List (κ × ν)) :
    get? (f key) (entries.map (Prod.map f g)) = (get? key entries).map g := by
  induction entries with
  | nil => rfl
  | cons entry rest ih =>
      simp only [List.map_cons, Prod.map_fst, Prod.map_snd, get?, hf, ih]
      split <;> rfl

theorem put_map (key : κ) (value : ν) (entries : List (κ × ν)) :
    put (f key) value (entries.map (Prod.map f id)) =
      (put key value entries).map (Prod.map f id) := by
  induction entries with
  | nil => rfl
  | cons entry rest ih =>
      simp only [List.map_cons, Prod.map_fst, Prod.map_snd, put, hf, ih, id_eq]
      split <;> rfl

end Map

section Keys

variable [LawfulBEq κ]

theorem mem_of_mem_put {key : κ} {value : ν} {entries : List (κ × ν)} {entry : κ × ν}
    (h : entry ∈ put key value entries) : entry = (key, value) ∨ entry ∈ entries := by
  induction entries with
  | nil => exact .inl (List.mem_singleton.mp h)
  | cons first rest ih =>
      unfold put at h
      split at h
      · rename_i hkey
        rcases List.mem_cons.mp h with rfl | h
        · exact .inl (by rw [eq_of_beq hkey])
        · exact .inr (List.mem_cons_of_mem _ h)
      · rcases List.mem_cons.mp h with rfl | h
        · exact .inr List.mem_cons_self
        · exact (ih h).imp_right (List.mem_cons_of_mem _)

theorem mem_of_mem_putAll {pairs entries : List (κ × ν)} {entry : κ × ν}
    (h : entry ∈ putAll pairs entries) : entry ∈ pairs ∨ entry ∈ entries := by
  induction pairs generalizing entries with
  | nil => exact .inr h
  | cons pair rest ih =>
      have hrest : entry ∈ putAll rest (put pair.1 pair.2 entries) := h
      rcases ih hrest with h | h
      · exact .inl (List.mem_cons_of_mem _ h)
      · exact (mem_of_mem_put h).imp_left fun heq => List.mem_cons.mpr (.inl heq)

theorem mem_of_mem_ofPairs {pairs : List (κ × ν)} {entry : κ × ν} (h : entry ∈ ofPairs pairs) :
    entry ∈ pairs :=
  (mem_of_mem_putAll h).resolve_right List.not_mem_nil

theorem put_of_notMem {key : κ} {entries : List (κ × ν)} (h : key ∉ entries.map Prod.fst)
    (value : ν) : put key value entries = entries ++ [(key, value)] := by
  refine put_of_forall_ne (fun entry hentry => beq_false_of_ne ?_) value
  rintro rfl
  exact h (List.mem_map_of_mem hentry)

theorem nodup_eraseDups (keys : List κ) : keys.eraseDups.Nodup := by
  induction keys using List.reverseRecOn with
  | nil => exact List.nodup_nil
  | append_singleton front key ih =>
      rw [List.eraseDups_append]
      by_cases hkey : key ∈ front
      · simpa [List.removeAll, hkey] using ih
      · have hapart : ∀ other ∈ front, other ≠ key := fun other hother heq => hkey (heq ▸ hother)
        simpa [List.removeAll, hkey, List.eraseDups_cons, List.nodup_append, ih] using hapart

-- The keys are those that were ever set, each in the place where it was set first.
theorem map_fst_put_of_eq_eraseDups {entries : List (κ × ν)} {keys : List κ}
    (h : entries.map Prod.fst = keys.eraseDups) (key : κ) (value : ν) :
    (put key value entries).map Prod.fst = (keys ++ [key]).eraseDups := by
  rw [List.eraseDups_append, ← h]
  by_cases hkey : key ∈ keys
  · have hentry : ∃ entry ∈ entries, (entry.1 == key) = true := by
      obtain ⟨entry, hentry, rfl⟩ := List.mem_map.mp (h ▸ List.mem_eraseDups.mpr hkey)
      exact ⟨entry, hentry, beq_self_eq_true _⟩
    rw [map_fst_put_of_exists hentry]
    simp [List.removeAll, hkey]
  · have hnew : key ∉ entries.map Prod.fst := fun hmem => hkey (List.mem_eraseDups.mp (h ▸ hmem))
    rw [put_of_notMem hnew]
    simp [List.removeAll, hkey, List.eraseDups_cons]

theorem apart_iff_nodup {entries : List (κ × ν)} :
    Apart entries ↔ (entries.map Prod.fst).Nodup := by
  simp only [Apart, beq_eq_false_iff_ne]
  rfl

theorem nodup_map_fst_put {entries : List (κ × ν)} (h : (entries.map Prod.fst).Nodup) (key : κ)
    (value : ν) : ((put key value entries).map Prod.fst).Nodup :=
  apart_iff_nodup.mp ((apart_iff_nodup.mpr h).put key value)

theorem ofPairs_of_nodup {pairs : List (κ × ν)} (h : (pairs.map Prod.fst).Nodup) :
    ofPairs pairs = pairs :=
  putAll_of_apart (apart_iff_nodup.mpr h)

theorem get?_of_notMem {key : κ} {entries : List (κ × ν)} (h : key ∉ entries.map Prod.fst) :
    get? key entries = none := by
  induction entries with
  | nil => rfl
  | cons entry rest ih =>
      rw [List.map_cons, List.mem_cons, not_or] at h
      rw [get?, beq_false_of_ne (Ne.symm h.1)]
      exact ih h.2

-- Values that are set under keys of their own cover the ones that were there.
theorem get?_putAll {pairs : List (κ × ν)} (h : (pairs.map Prod.fst).Nodup) (key : κ)
    (entries : List (κ × ν)) :
    get? key (putAll pairs entries) = (get? key pairs).or (get? key entries) := by
  induction pairs generalizing entries with
  | nil => rfl
  | cons pair rest ih =>
      obtain ⟨hpair, hrest⟩ := List.nodup_cons.mp h
      have hput : get? key (putAll (pair :: rest) entries) =
          (get? key rest).or (get? key (put pair.1 pair.2 entries)) := ih hrest _
      rw [hput, get?_put, get?]
      by_cases hkey : pair.1 = key
      · subst hkey
        rw [get?_of_notMem hpair]
        simp
      · simp [hkey]

section Choice

variable {ι : Type} {name : ι → κ} {items : List ι} (choice : ι → Option ν)

omit [BEq κ] [LawfulBEq κ] in
theorem map_fst_filterMap_sublist :
    ((items.filterMap fun item => (choice item).map (name item, ·)).map Prod.fst).Sublist
      (items.map name) := by
  induction items with
  | nil => exact List.Sublist.refl _
  | cons first rest ih =>
      rw [List.filterMap_cons]
      cases choice first with
      | none => exact ih.cons _
      | some value => exact ih.cons_cons _

-- If each item sets a key of its own, then what is found under a key is the choice of its item.
theorem get?_filterMap (h : (items.map name).Nodup) {item : ι} (hitem : item ∈ items) :
    get? (name item) (items.filterMap fun item => (choice item).map (name item, ·)) =
      choice item := by
  induction items with
  | nil => contradiction
  | cons first rest ih =>
      obtain ⟨hfirst, hrest⟩ := List.nodup_cons.mp h
      rcases List.mem_cons.mp hitem with rfl | hitem
      · have hnone : get? (name item)
            (rest.filterMap fun item => (choice item).map (name item, ·)) = none :=
          get?_of_notMem fun hmem => hfirst ((map_fst_filterMap_sublist choice).subset hmem)
        cases hchoice : choice item with
        | none => simp [hchoice, hnone]
        | some value => simp [hchoice, get?]
      · have hne : name first ≠ name item := fun hname =>
          hfirst (hname ▸ List.mem_map_of_mem hitem)
        rw [← ih hrest hitem, List.filterMap_cons]
        cases choice first with
        | none => rfl
        | some value => simp [get?, hne]

end Choice

theorem nodup_map_fst_ofPairs (pairs : List (κ × ν)) : ((ofPairs pairs).map Prod.fst).Nodup :=
  apart_iff_nodup.mp (apart_ofPairs pairs)

-- No value is lost exactly if each is set under a key of its own.
theorem length_ofPairs_eq_iff {pairs : List (κ × ν)} :
    (ofPairs pairs).length = pairs.length ↔ (pairs.map Prod.fst).Nodup := by
  constructor
  · intro hlen
    have hsub : (ofPairs pairs).map Prod.fst ⊆ pairs.map Prod.fst :=
      List.map_subset _ fun _ hentry => mem_of_mem_ofPairs hentry
    have hperm := ((nodup_map_fst_ofPairs pairs).subperm hsub).perm_of_length_le
      (by simp only [List.length_map, hlen, Nat.le_refl])
    exact hperm.nodup_iff.mp (nodup_map_fst_ofPairs pairs)
  · intro h
    rw [ofPairs_of_nodup h]

section Related

variable {ν' : Type}

-- The same keys in the same order, and related values under each of them.
def Related (R : κ → ν → ν' → Prop) (entries : List (κ × ν)) (entries' : List (κ × ν')) : Prop :=
  List.Forall₂ (fun entry entry' => entry'.1 = entry.1 ∧ R entry.1 entry.2 entry'.2)
    entries entries'

namespace Related

variable {R : κ → ν → ν' → Prop} {entries pairs : List (κ × ν)} {entries' pairs' : List (κ × ν')}

theorem put (h : Related R entries entries') {key : κ} {value : ν} {value' : ν'}
    (hvalue : R key value value') :
    Related R (Ordered.put key value entries) (Ordered.put key value' entries') := by
  induction h with
  | nil => exact .cons ⟨rfl, hvalue⟩ .nil
  | @cons entry entry' rest rest' hfirst hrest ih =>
      obtain ⟨hkey, hrelated⟩ := hfirst
      simp only [Ordered.put, hkey]
      split
      · rename_i heq
        rw [← eq_of_beq heq] at hvalue
        exact .cons ⟨rfl, hvalue⟩ hrest
      · exact .cons ⟨rfl, hrelated⟩ ih

theorem putAll (hpairs : Related R pairs pairs') (h : Related R entries entries') :
    Related R (Ordered.putAll pairs entries) (Ordered.putAll pairs' entries') := by
  induction hpairs generalizing entries entries' with
  | nil => exact h
  | cons hfirst _ ih =>
      obtain ⟨hkey, hvalue⟩ := hfirst
      simp only [Ordered.putAll, List.foldl_cons, hkey]
      exact ih (h.put hvalue)

theorem get? (h : Related R entries entries') (key : κ) :
    Ordered.get? key entries = none ∧ Ordered.get? key entries' = none ∨
      ∃ value value', Ordered.get? key entries = some value ∧
        Ordered.get? key entries' = some value' ∧ R key value value' := by
  induction h with
  | nil => exact .inl ⟨rfl, rfl⟩
  | @cons entry entry' rest rest' hfirst _ ih =>
      obtain ⟨hkey, hvalue⟩ := hfirst
      simp only [Ordered.get?, hkey]
      split
      · rename_i heq
        rw [eq_of_beq heq] at hvalue
        exact .inr ⟨_, _, rfl, rfl, hvalue⟩
      · exact ih

end Related

end Related

end Keys

end SpanTags.Ordered
