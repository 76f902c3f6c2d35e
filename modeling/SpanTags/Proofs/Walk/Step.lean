import SpanTags.Tag.Walk
import Mathlib.Logic.Relation

namespace SpanTags.Walk

variable {ε : Type} {root : Text} {walk later : Walk ε}

-- The events in the order in which they happened.
def log (walk : Walk ε) : List Event :=
  walk.events.reverse

-- A visit that comes too late.
def mark (walk : Walk ε) : Walk ε :=
  { walk with trimmed := true }

@[simp] theorem log_record (event : Event) : (walk.record event).log = walk.log ++ [event] := by
  simp [log, record]

@[simp] theorem log_emit_ok (path text : Text) :
    (walk.emit path (.ok text)).log = walk.log ++ [.emitted path text] :=
  log_record _

@[simp] theorem emissions_asked (keys : List Text) (isLast : Bool) :
    (walk.record (.asked keys isLast)).emissions = walk.emissions := by
  simp [emissions, record, List.filterMap_append]

@[simp] theorem emissions_entered (keys : List Text) :
    (walk.record (.entered keys)).emissions = walk.emissions := by
  simp [emissions, record, List.filterMap_append]

@[simp] theorem emissions_emit_ok (path text : Text) :
    (walk.emit path (.ok text)).emissions = walk.emissions ++ [(path, text)] := by
  simp [emissions, emit, record, List.filterMap_append]

@[simp] theorem left_emit_ok (path text : Text) :
    (walk.emit path (.ok text)).left = walk.left - 1 := rfl

@[simp] theorem left_record (event : Event) : (walk.record event).left = walk.left := rfl

@[simp] theorem left_mark : walk.mark.left = walk.left := rfl

@[simp] theorem emissions_mark : walk.mark.emissions = walk.emissions := rfl

-- What can happen next on a walk: the mask is consulted, a tag is set while some are
-- left, the lack of them is noted, or the walk fails.
inductive Step (root : Text) : Walk ε → Walk ε → Prop
  | asked {walk : Walk ε} (keys : List Text) (isLast : Bool) :
      Step root walk (walk.record (.asked keys isLast))
  | entered {walk : Walk ε} (keys : List Text) : Step root walk (walk.record (.entered keys))
  | leaf {walk : Walk ε} (keys : List Text) (s : Scalar) (hleft : walk.left ≠ 0) :
      Step root walk (walk.emit (Tag.path root keys) (Tag.leafText (Tag.ownKey root keys) s))
  | truncated {walk : Walk ε} (keys : List Text) (hleft : walk.left ≠ 0) :
      Step root walk (walk.emit (Tag.path root keys) (.ok Tag.truncated))
  | marked {walk : Walk ε} (hleft : walk.left = 0) : Step root walk walk.mark
  | failed {walk : Walk ε} (fault : WalkFault ε) : Step root walk (walk.fail fault)

def Steps (root : Text) : Walk ε → Walk ε → Prop :=
  Relation.ReflTransGen (Step root)

theorem Step.steps (h : Step root walk later) : Steps root walk later :=
  .single h

theorem Steps.refl : Steps root walk walk :=
  Relation.ReflTransGen.refl

theorem Steps.trans {final : Walk ε} (h : Steps root walk later) (h' : Steps root later final) :
    Steps root walk final :=
  Relation.ReflTransGen.trans h h'

section Visit

variable {mask : Mask ε} {maxDepth : Int}

theorem enter_steps {cursor : mask.Cursor} {keys : List Text} {key : Except TooManyDigits Text}
    {isLast : Bool} {inside : List Text → mask.Cursor → Walk ε → Walk ε}
    (hinside : ∀ keys cursor walk, Steps root walk (inside keys cursor walk)) (walk : Walk ε) :
    Steps root walk (walk.enter mask cursor keys key isLast inside) := by
  unfold enter
  split
  · exact .refl
  · exact (Step.failed _).steps
  · rename_i key _
    have hasked : Steps root walk (walk.record (.asked (keys ++ [key]) isLast)) :=
      (Step.asked _ _).steps
    dsimp only
    split
    · exact hasked.trans (Step.failed _).steps
    · exact hasked
    · exact hasked.trans ((Step.entered _).steps.trans (hinside _ _ _))

theorem container_steps (keys : List Text) {below : Walk ε} (hbelow : Steps root walk below) :
    Steps root walk
      (if walk.left = 0 then walk.mark
        else if maxDepth ≤ keys.length then walk.emit (Tag.path root keys) (.ok Tag.truncated)
        else below) := by
  split
  · exact (Step.marked (by assumption)).steps
  · split
    · exact (Step.truncated keys (by assumption)).steps
    · exact hbelow

mutual

theorem visit_steps (keys : List Text) (cursor : mask.Cursor) (v : Value) (walk : Walk ε) :
    Steps root walk (visit mask maxDepth root keys cursor v walk) := by
  cases v with
  | scalar s =>
      simp only [visit]
      split
      · exact (Step.marked (by assumption)).steps
      · exact (Step.leaf keys s (by assumption)).steps
  | list items =>
      simp only [visit]
      exact container_steps keys (visitItems_steps keys cursor 0 items walk)
  | tuple items =>
      simp only [visit]
      exact container_steps keys (visitItems_steps keys cursor 0 items walk)
  | dict entries =>
      simp only [visit]
      exact container_steps keys (visitEntries_steps keys cursor entries walk)

theorem visitItems_steps (keys : List Text) (cursor : mask.Cursor) (place : Nat)
    (items : List Value) (walk : Walk ε) :
    Steps root walk (visitItems mask maxDepth root keys cursor place items walk) := by
  cases items with
  | nil => exact .refl
  | cons v rest =>
      simp only [visitItems]
      exact (enter_steps (fun keys cursor walk => visit_steps keys cursor v walk) walk).trans
        (visitItems_steps keys cursor (place + 1) rest _)

theorem visitEntries_steps (keys : List Text) (cursor : mask.Cursor)
    (entries : List (Key × Value)) (walk : Walk ε) :
    Steps root walk (visitEntries mask maxDepth root keys cursor entries walk) := by
  match entries with
  | [] => exact .refl
  | (key, v) :: rest =>
      simp only [visitEntries]
      exact (enter_steps (fun keys cursor walk => visit_steps keys cursor v walk) walk).trans
        (visitEntries_steps keys cursor rest _)

end

theorem run_steps (limits : Limits) (v : Value) :
    Steps root (start limits) (run mask root limits v) :=
  visit_steps [] mask.head v (start limits)

end Visit

theorem Step.emissions_length_add_left (h : Step root walk later) :
    later.emissions.length + later.left = walk.emissions.length + walk.left := by
  cases h with
  | asked keys isLast => simp
  | entered keys => simp
  | leaf keys s hleft =>
      cases Tag.leafText (Tag.ownKey root keys) s with
      | ok text => simp; omega
      | error fault => rfl
  | truncated keys hleft => simp; omega
  | marked hleft => rfl
  | failed fault => rfl

-- A tag takes one of those that are left, and nothing gives one back.
theorem Steps.emissions_length_add_left (h : Steps root walk later) :
    later.emissions.length + later.left = walk.emissions.length + walk.left := by
  induction h with
  | refl => rfl
  | tail _ step ih => rw [step.emissions_length_add_left, ih]

theorem Step.emissions_prefix (h : Step root walk later) :
    walk.emissions <+: later.emissions := by
  cases h with
  | asked keys isLast => simp
  | entered keys => simp
  | leaf keys s hleft =>
      cases Tag.leafText (Tag.ownKey root keys) s with
      | ok text => simp
      | error fault => exact List.prefix_refl _
  | truncated keys hleft => simp
  | marked hleft => exact List.prefix_refl _
  | failed fault => exact List.prefix_refl _

theorem Steps.emissions_prefix (h : Steps root walk later) :
    walk.emissions <+: later.emissions := by
  induction h with
  | refl => exact List.prefix_refl _
  | tail _ step ih => exact ih.trans step.emissions_prefix

theorem Step.prefix_log (h : Step root walk later) : walk.log <+: later.log := by
  cases h with
  | asked keys isLast => simp
  | entered keys => simp
  | leaf keys s hleft =>
      cases Tag.leafText (Tag.ownKey root keys) s with
      | ok text => simp
      | error fault => exact List.prefix_refl _
  | truncated keys hleft => simp
  | marked hleft => exact List.prefix_refl _
  | failed fault => exact List.prefix_refl _

-- Nothing that is recorded is lost.
theorem Steps.prefix_log (h : Steps root walk later) : walk.log <+: later.log := by
  induction h with
  | refl => exact List.prefix_refl _
  | tail _ step ih => exact ih.trans step.prefix_log

theorem Step.left_eq_zero_of_trimmed (h : Step root walk later)
    (hwalk : walk.trimmed = true → walk.left = 0) (ht : later.trimmed = true) :
    later.left = 0 := by
  cases h with
  | asked keys isLast => exact hwalk ht
  | entered keys => exact hwalk ht
  | leaf keys s hleft =>
      cases hs : Tag.leafText (Tag.ownKey root keys) s with
      | ok text =>
          rw [hs] at ht
          exact absurd (hwalk ht) hleft
      | error fault =>
          rw [hs] at ht
          exact absurd (hwalk ht) hleft
  | truncated keys hleft => exact absurd (hwalk ht) hleft
  | marked hleft => exact hleft
  | failed fault => exact hwalk ht

-- The marker is only set once all other tags are.
theorem Steps.left_eq_zero_of_trimmed {limits : Limits} (h : Steps root (start limits) walk)
    (ht : walk.trimmed = true) : walk.left = 0 := by
  induction h with
  | refl => simp [start] at ht
  | tail _ step ih => exact step.left_eq_zero_of_trimmed ih ht

-- Nothing more is tagged once the marker is set.
theorem Steps.emissions_eq_of_trimmed {limits : Limits} (h : Steps root (start limits) walk)
    (ht : walk.trimmed = true) (h' : Steps root walk later) :
    later.emissions = walk.emissions := by
  have hleft := h.left_eq_zero_of_trimmed ht
  have hcount := h'.emissions_length_add_left
  exact (h'.emissions_prefix.eq_of_length_le (by omega)).symm

end SpanTags.Walk
