import SpanTags.Proofs.Payload.Nodes
import SpanTags.Tag.Walk

namespace SpanTags.Mask

variable {ε : Type} (mask : Mask ε)

-- A mask that answers whatever it is asked.
def Total : Prop :=
  ∀ cursor key isLast, ∃ answer, mask.canTag cursor key isLast = .ok answer

def cursorAfter (keys : List Text) : mask.Cursor :=
  keys.foldl mask.next mask.head

-- The answer about an entry. Only a scalar's key is asked about as the last one.
def grants (cursor : mask.Cursor) (key : Text) (v : Value) : Bool :=
  match mask.canTag cursor key (!v.isContainer) with
  | .ok answer => answer
  | .error _ => false

-- Every entry on the way is granted at the cursor to which the keys before it lead.
def Admits (way : List (Text × Value)) : Prop :=
  ∀ i (hi : i < way.length),
    mask.grants (mask.cursorAfter ((way.take i).map Prod.fst)) way[i].1 way[i].2 = true

instance (way : List (Text × Value)) : Decidable (mask.Admits way) :=
  inferInstanceAs (Decidable (∀ i (_ : i < way.length), _ = true))

variable {mask}

@[simp] theorem cursorAfter_concat (keys : List Text) (key : Text) :
    mask.cursorAfter (keys ++ [key]) = mask.next (mask.cursorAfter keys) key := by
  simp [cursorAfter]

theorem canTag_of_grants {cursor : mask.Cursor} {key : Text} {v : Value}
    (h : mask.grants cursor key v = true) :
    mask.canTag cursor key (!v.isContainer) = .ok true := by
  unfold grants at h
  split at h
  · rename_i answer heq
    rw [heq, h]
  · contradiction

theorem Total.canTag_of_not_grants (hmask : mask.Total) {cursor : mask.Cursor} {key : Text}
    {v : Value} (h : ¬mask.grants cursor key v = true) :
    mask.canTag cursor key (!v.isContainer) = .ok false := by
  obtain ⟨answer, ha⟩ := hmask cursor key (!v.isContainer)
  cases answer with
  | false => exact ha
  | true => simp [grants, ha] at h

theorem refusing_total (denied : List Text) : (refusing denied []).Total := by
  intro cursor key isLast
  exact ⟨_, rfl⟩

@[simp] theorem admits_nil : mask.Admits [] := by
  intro i hi
  contradiction

theorem Admits.of_append {way rest : List (Text × Value)} (h : mask.Admits (way ++ rest)) :
    mask.Admits way := by
  intro i hi
  have hget := h i (by simp only [List.length_append]; omega)
  rwa [List.getElem_append_left hi, List.take_append_of_le_length (Nat.le_of_lt hi)] at hget

theorem admits_concat_iff (way : List (Text × Value)) (key : Text) (v : Value) :
    mask.Admits (way ++ [(key, v)]) ↔
      mask.Admits way ∧ mask.grants (mask.cursorAfter (way.map Prod.fst)) key v = true := by
  constructor
  · intro h
    refine ⟨h.of_append, ?_⟩
    simpa using h way.length (by simp)
  · rintro ⟨hway, hlast⟩ i hi
    by_cases hin : i < way.length
    · rw [List.getElem_append_left hin, List.take_append_of_le_length (Nat.le_of_lt hin)]
      exact hway i hin
    · have hend : i = way.length := by
        simp only [List.length_append, List.length_singleton] at hi
        omega
      subst hend
      simpa using hlast

end SpanTags.Mask
