import SpanTags.Payload.Basic
import Mathlib.Data.List.Forall2

namespace SpanTags.Value

-- What is directly inside a container, in order: an entry with its key, an item without one.
def inside : Value → List (Option Key × Value)
  | .scalar _ => []
  | .list items => items.map fun v => (none, v)
  | .tuple items => items.map fun v => (none, v)
  | .dict entries => entries.map fun (key, v) => (some key, v)

-- The value at a position, which counts the items or entries before it at each step. The
-- keys that are passed on the way come with it.
def at? (v : Value) : List Nat → Option (List (Option Key) × Value)
  | [] => some ([], v)
  | n :: rest =>
    match v.inside[n]? with
    | none => none
    | some (key, inner) => (inner.at? rest).map fun (way, found) => (key :: way, found)

section Inside

mutual

-- Every value is built of what is inside it.
theorem inside_induction {motive : Value → Prop}
    (step : ∀ v : Value, (∀ child ∈ v.inside, motive child.2) → motive v) (v : Value) :
    motive v := by
  refine step v ?_
  cases v with
  | scalar s => exact List.forall_mem_nil _
  | list items => exact List.forall_mem_map.mpr (items_induction step items)
  | tuple items => exact List.forall_mem_map.mpr (items_induction step items)
  | dict entries => exact List.forall_mem_map.mpr (entries_induction step entries)

theorem items_induction {motive : Value → Prop}
    (step : ∀ v : Value, (∀ child ∈ v.inside, motive child.2) → motive v) (items : List Value) :
    ∀ v ∈ items, motive v := by
  cases items with
  | nil => exact List.forall_mem_nil _
  | cons v rest =>
      exact List.forall_mem_cons.mpr ⟨inside_induction step v, items_induction step rest⟩

theorem entries_induction {motive : Value → Prop}
    (step : ∀ v : Value, (∀ child ∈ v.inside, motive child.2) → motive v)
    (entries : List (Key × Value)) : ∀ entry ∈ entries, motive entry.2 := by
  match entries with
  | [] => exact List.forall_mem_nil _
  | (key, v) :: rest =>
      exact List.forall_mem_cons.mpr ⟨inside_induction step v, entries_induction step rest⟩

end

end Inside

@[simp] theorem at?_nil (v : Value) : v.at? [] = some ([], v) := rfl

theorem at?_cons_eq_some_iff {v found : Value} {n : Nat} {place : List Nat}
    {way : List (Option Key)} :
    v.at? (n :: place) = some (way, found) ↔
      ∃ key inner rest, v.inside[n]? = some (key, inner) ∧
        inner.at? place = some (rest, found) ∧ way = key :: rest := by
  rw [at?]
  cases hstep : v.inside[n]? with
  | none => simp
  | some child =>
      obtain ⟨key, inner⟩ := child
      simp only [Option.map_eq_some_iff, Prod.mk.injEq, Prod.exists, Option.some.injEq]
      constructor
      · rintro ⟨rest, found', hrest, rfl, rfl⟩
        exact ⟨key, inner, rest, ⟨rfl, rfl⟩, hrest, rfl⟩
      · rintro ⟨key', inner', rest, ⟨rfl, rfl⟩, hrest, rfl⟩
        exact ⟨rest, found, hrest, rfl, rfl⟩

end SpanTags.Value
