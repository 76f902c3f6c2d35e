namespace SpanTags

-- Association lists in the order in which their keys were first set.
namespace Ordered

variable {κ ν : Type} [BEq κ]

-- A key that is present keeps its place and takes the value; a new key comes last.
def put (key : κ) (value : ν) : List (κ × ν) → List (κ × ν)
  | [] => [(key, value)]
  | (k, v) :: rest => if k == key then (k, value) :: rest else (k, v) :: put key value rest

def get? (key : κ) : List (κ × ν) → Option ν
  | [] => none
  | (k, v) :: rest => if k == key then some v else get? key rest

def has (key : κ) (entries : List (κ × ν)) : Bool :=
  (get? key entries).isSome

def putAll (pairs entries : List (κ × ν)) : List (κ × ν) :=
  pairs.foldl (fun entries (key, value) => put key value entries) entries

def ofPairs (pairs : List (κ × ν)) : List (κ × ν) :=
  putAll pairs []

theorem get?_put [LawfulBEq κ] (key other : κ) (value : ν) (entries : List (κ × ν)) :
    get? other (put key value entries) =
      if key == other then some value else get? other entries := by
  induction entries with
  | nil => rfl
  | cons entry rest ih =>
      obtain ⟨k, v⟩ := entry
      by_cases hk : k = key
      · subst k
        simp only [put, get?, beq_self_eq_true, if_true]
        split <;> rfl
      · have hput : put key value ((k, v) :: rest) = (k, v) :: put key value rest := by
          simp [put, hk]
        rw [hput, get?, get?, ih]
        by_cases ho : k = other
        · subst k
          simp [Ne.symm hk]
        · simp [ho]

theorem length_put_le (key : κ) (value : ν) (entries : List (κ × ν)) :
    (put key value entries).length ≤ entries.length + 1 := by
  induction entries with
  | nil => simp [put]
  | cons entry rest ih =>
      unfold put
      split <;> simp only [List.length_cons] <;> omega

theorem length_putAll_le (pairs entries : List (κ × ν)) :
    (putAll pairs entries).length ≤ entries.length + pairs.length := by
  induction pairs generalizing entries with
  | nil => simp [putAll]
  | cons pair rest ih =>
      have hput := length_put_le pair.1 pair.2 entries
      have hrest := ih (put pair.1 pair.2 entries)
      simp only [putAll, List.foldl_cons, List.length_cons] at hrest ⊢
      omega

theorem length_ofPairs_le (pairs : List (κ × ν)) : (ofPairs pairs).length ≤ pairs.length := by
  simpa only [ofPairs, List.length_nil, Nat.zero_add] using length_putAll_le pairs []

-- What holds of the values that are there and of those that are set holds of every
-- value afterwards.
theorem get?_putAll_induction [LawfulBEq κ] {P : ν → Prop} {pairs entries : List (κ × ν)}
    (hpairs : ∀ pair ∈ pairs, P pair.2)
    (hentries : ∀ key value, get? key entries = some value → P value) (key : κ) (value : ν)
    (h : get? key (putAll pairs entries) = some value) : P value := by
  induction pairs generalizing entries with
  | nil => exact hentries key value h
  | cons pair rest ih =>
      refine ih (fun other ho => hpairs other (List.mem_cons_of_mem _ ho)) ?_ h
      intro other found hfound
      rw [get?_put] at hfound
      split at hfound
      · rw [← Option.some.inj hfound]
        exact hpairs pair List.mem_cons_self
      · exact hentries other found hfound

theorem mem_map_snd_of_get? {key : κ} {value : ν} {entries : List (κ × ν)}
    (h : get? key entries = some value) : value ∈ entries.map Prod.snd := by
  induction entries with
  | nil => contradiction
  | cons entry rest ih =>
      rw [get?] at h
      split at h
      · rw [← Option.some.inj h]
        exact List.mem_cons_self
      · exact List.mem_cons_of_mem _ (ih h)

theorem has_eq_true_iff [LawfulBEq κ] {key : κ} {entries : List (κ × ν)} :
    has key entries = true ↔ key ∈ entries.map Prod.fst := by
  induction entries with
  | nil => simp [has, get?]
  | cons entry rest ih =>
      by_cases hkey : entry.1 = key
      · simp [has, get?, hkey]
      · rw [has, get?, if_neg (by simpa using hkey), List.map_cons, List.mem_cons, ← has, ih]
        simp [Ne.symm hkey]

theorem map_snd_put_subset (key : κ) (value : ν) (entries : List (κ × ν)) :
    (put key value entries).map Prod.snd ⊆ value :: entries.map Prod.snd := by
  induction entries with
  | nil => exact List.Subset.refl _
  | cons entry rest ih =>
      unfold put
      split
      · exact List.cons_subset_cons _ (List.subset_cons_self _ _)
      · intro other hother
        rcases List.mem_cons.mp hother with rfl | hother
        · exact List.mem_cons_of_mem _ List.mem_cons_self
        · exact List.cons_subset_cons value (List.subset_cons_self _ _) (ih hother)

theorem map_snd_putAll_subset (pairs entries : List (κ × ν)) :
    (putAll pairs entries).map Prod.snd ⊆ pairs.map Prod.snd ++ entries.map Prod.snd := by
  induction pairs generalizing entries with
  | nil => exact List.Subset.refl _
  | cons pair rest ih =>
      intro value hvalue
      rcases List.mem_append.mp (ih (put pair.1 pair.2 entries) hvalue) with h | h
      · exact List.mem_append_left _ (List.mem_cons_of_mem _ h)
      · rcases List.mem_cons.mp (map_snd_put_subset _ _ _ h) with rfl | h
        · exact List.mem_append_left _ List.mem_cons_self
        · exact List.mem_append_right _ h

end Ordered

end SpanTags
