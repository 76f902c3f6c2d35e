import Mathlib.Data.List.Basic

namespace SpanTags

variable {α β : Type} {sep a : α} {items separator piece : List α} {pieces : List (List α)}

theorem infix_intercalate_of_mem (h : piece ∈ pieces) :
    piece <:+: separator.intercalate pieces := by
  induction pieces with
  | nil => contradiction
  | cons first rest ih =>
      cases rest with
      | nil => simp [List.mem_singleton.mp h]
      | cons second rest =>
          rw [List.intercalate_cons_cons]
          rcases List.mem_cons.mp h with rfl | h
          · rw [List.append_assoc]
            exact (List.prefix_append piece _).isInfix
          · exact (ih h).trans (List.suffix_append _ _).isInfix

theorem of_mem_intercalate (h : a ∈ separator.intercalate pieces) :
    a ∈ separator ∨ ∃ piece ∈ pieces, a ∈ piece := by
  induction pieces with
  | nil => simp at h
  | cons first rest ih =>
      cases rest with
      | nil => exact .inr ⟨first, List.mem_cons_self, by simpa using h⟩
      | cons second rest =>
          rw [List.intercalate_cons_cons, List.mem_append, List.mem_append] at h
          obtain (hfirst | hseparator) | hrest := h
          · exact .inr ⟨first, List.mem_cons_self, hfirst⟩
          · exact .inl hseparator
          · exact (ih hrest).imp_right fun ⟨piece, hpiece, ha⟩ =>
              ⟨piece, List.mem_cons_of_mem _ hpiece, ha⟩

theorem flatMap_intercalate (f : α → List β) (separator : List α) (pieces : List (List α)) :
    (separator.intercalate pieces).flatMap f =
      (separator.flatMap f).intercalate (pieces.map (·.flatMap f)) := by
  induction pieces with
  | nil => rfl
  | cons first rest ih =>
      cases rest with
      | nil => simp
      | cons second rest =>
          rw [List.intercalate_cons_cons, List.flatMap_append, List.flatMap_append, ih]
          simp only [List.map_cons, List.intercalate_cons_cons]

variable [BEq α] [LawfulBEq α]

theorem notMem_of_mem_splitOn : ∀ piece ∈ items.splitOn sep, sep ∉ piece := by
  induction items with
  | nil => simp
  | cons first rest ih =>
      obtain ⟨head, tail, hsplit⟩ := List.exists_cons_of_ne_nil (List.splitOn_ne_nil sep rest)
      rw [List.splitOn_cons_eq_if_modifyHead]
      rw [hsplit] at ih ⊢
      obtain ⟨hhead, htail⟩ := List.forall_mem_cons.mp ih
      split
      · exact List.forall_mem_cons.mpr ⟨List.not_mem_nil, ih⟩
      · rename_i hne
        rw [beq_iff_eq] at hne
        refine List.forall_mem_cons.mpr ⟨?_, htail⟩
        exact List.not_mem_cons_of_ne_of_not_mem (Ne.symm hne) hhead

-- The pieces of a list are those without a separator that make it up when joined.
theorem splitOn_eq_iff : items.splitOn sep = pieces ↔
    pieces ≠ [] ∧ (∀ piece ∈ pieces, sep ∉ piece) ∧ [sep].intercalate pieces = items := by
  constructor
  · rintro rfl
    exact ⟨List.splitOn_ne_nil _ _, notMem_of_mem_splitOn, List.intercalate_splitOn sep⟩
  · rintro ⟨hne, hapart, rfl⟩
    exact List.splitOn_intercalate sep hapart hne

end SpanTags
