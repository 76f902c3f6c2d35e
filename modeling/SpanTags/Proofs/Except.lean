import Mathlib.Data.List.Forall2

namespace SpanTags

variable {ε ε' α β : Type}

theorem exists_of_bind_eq_ok {x : Except ε α} {f : α → Except ε β} {b : β}
    (h : x >>= f = .ok b) : ∃ a, x = .ok a ∧ f a = .ok b := by
  cases x with
  | error fault => contradiction
  | ok a => exact ⟨a, rfl, h⟩

theorem map_eq_ok_iff {x : Except ε α} {f : α → β} {b : β} :
    f <$> x = .ok b ↔ ∃ a, x = .ok a ∧ b = f a := by
  cases x with
  | error fault => exact ⟨nofun, nofun⟩
  | ok a =>
      constructor
      · intro h
        exact ⟨a, rfl, (Except.ok.inj h).symm⟩
      · rintro ⟨a', ha, rfl⟩
        rw [Except.ok.inj ha]
        rfl

theorem mapError_eq_ok_iff {x : Except ε α} {f : ε → ε'} {a : α} :
    x.mapError f = .ok a ↔ x = .ok a := by
  cases x with
  | error fault => exact ⟨nofun, nofun⟩
  | ok b =>
      exact ⟨fun h => congrArg Except.ok (Except.ok.inj h),
        fun h => congrArg Except.ok (Except.ok.inj h)⟩

-- A pass over a list succeeds exactly if it does on each member.
theorem mapM_eq_ok_iff {f : α → Except ε β} {items : List α} {results : List β} :
    items.mapM f = .ok results ↔
      List.Forall₂ (fun item result => f item = .ok result) items results := by
  induction items generalizing results with
  | nil =>
      rw [List.mapM_nil, List.forall₂_nil_left_iff]
      exact ⟨fun h => (Except.ok.inj h).symm, fun h => by rw [h]; rfl⟩
  | cons item rest ih =>
      rw [List.mapM_cons, List.forall₂_cons_left_iff]
      constructor
      · intro h
        cases hf : f item with
        | error fault =>
            rw [hf] at h
            contradiction
        | ok first =>
            cases hrest : rest.mapM f with
            | error fault =>
                rw [hf, hrest] at h
                contradiction
            | ok others =>
                rw [hf, hrest] at h
                exact ⟨first, others, rfl, ih.mp hrest, (Except.ok.inj h).symm⟩
      · rintro ⟨first, others, hf, hrest, rfl⟩
        rw [hf, ih.mpr hrest]
        rfl

-- A pass over a list succeeds if it does on each member, whatever the results.
theorem exists_mapM {f : α → Except ε β} {items : List α}
    (h : ∀ item ∈ items, ∃ result, f item = .ok result) :
    ∃ results, items.mapM f = .ok results := by
  induction items with
  | nil => exact ⟨[], rfl⟩
  | cons item rest ih =>
      obtain ⟨⟨first, hfirst⟩, hrest⟩ := List.forall_mem_cons.mp h
      obtain ⟨others, hothers⟩ := ih hrest
      refine ⟨first :: others, ?_⟩
      rw [List.mapM_cons, hfirst, hothers]
      rfl

-- A pass ends at the first member on which it fails.
theorem mapM_eq_error {f : α → Except ε β} {front back : List α} {item : α} {results : List β}
    {fault : ε} (hfront : front.mapM f = .ok results)
    (hitem : f item = .error fault) : (front ++ item :: back).mapM f = .error fault := by
  rw [List.mapM_append, hfront, List.mapM_cons, hitem]
  rfl

theorem exists_of_forall₂ {R : α → β → Prop} {items : List α} {results : List β}
    (h : List.Forall₂ R items results) {item : α} (hitem : item ∈ items) :
    ∃ result ∈ results, R item result := by
  induction h with
  | nil => contradiction
  | cons hfirst _ ih =>
      rcases List.mem_cons.mp hitem with rfl | hitem
      · exact ⟨_, List.mem_cons_self, hfirst⟩
      · obtain ⟨result, hresult, hrel⟩ := ih hitem
        exact ⟨result, List.mem_cons_of_mem _ hresult, hrel⟩

theorem exists_ok_of_mapM {f : α → Except ε β} {items : List α} {results : List β}
    (h : items.mapM f = .ok results) {item : α} (hitem : item ∈ items) :
    ∃ result ∈ results, f item = .ok result :=
  exists_of_forall₂ (mapM_eq_ok_iff.mp h) hitem

theorem exists_item_of_mapM {f : α → Except ε β} {items : List α}
    {results : List β} (h : items.mapM f = .ok results) {result : β} (hresult : result ∈ results) :
    ∃ item ∈ items, f item = .ok result :=
  exists_of_forall₂ (mapM_eq_ok_iff.mp h).flip hresult

end SpanTags
