import SpanTags.Proofs.Walk.Step

namespace SpanTags

def Event.emission? : Event → Option (Text × Text)
  | .emitted path text => some (path, text)
  | _ => none

def emitted (log : List Event) : List (Text × Text) :=
  log.filterMap Event.emission?

-- How many tags each visit of a log finds set if `set` of them are there at its start.
-- A visit follows each move into an entry.
def visitCounts (set : Nat) : List Event → List Nat
  | [] => []
  | .asked _ _ :: rest => visitCounts set rest
  | .entered _ :: rest => set :: visitCounts set rest
  | .emitted _ _ :: rest => visitCounts (set + 1) rest

-- One of the visits finds no tag left, if `left` of them are at the start.
def late (left : Nat) (log : List Event) : Bool :=
  (visitCounts 0 log).any (left ≤ ·)

@[simp] theorem emitted_nil : emitted [] = [] := rfl

@[simp] theorem emitted_asked (keys : List Text) (isLast : Bool) (rest : List Event) :
    emitted (.asked keys isLast :: rest) = emitted rest := rfl

@[simp] theorem emitted_entered (keys : List Text) (rest : List Event) :
    emitted (.entered keys :: rest) = emitted rest := rfl

@[simp] theorem emitted_emitted (path text : Text) (rest : List Event) :
    emitted (.emitted path text :: rest) = (path, text) :: emitted rest := rfl

@[simp] theorem emitted_append (log log' : List Event) :
    emitted (log ++ log') = emitted log ++ emitted log' := by
  simp [emitted, List.filterMap_append]

theorem visitCounts_append (set : Nat) (log log' : List Event) :
    visitCounts set (log ++ log') =
      visitCounts set log ++ visitCounts (set + (emitted log).length) log' := by
  induction log generalizing set with
  | nil => rfl
  | cons event rest ih =>
      cases event with
      | asked keys isLast => exact ih set
      | entered keys => exact congrArg (set :: ·) (ih set)
      | emitted path text =>
          simp only [List.cons_append, visitCounts, ih, emitted_emitted, List.length_cons]
          rw [Nat.add_right_comm, Nat.add_assoc]

theorem visitCounts_add (set more : Nat) (log : List Event) :
    visitCounts (more + set) log = (visitCounts set log).map (more + ·) := by
  induction log generalizing set with
  | nil => rfl
  | cons event rest ih =>
      cases event with
      | asked keys isLast => exact ih set
      | entered keys => simp only [visitCounts, List.map_cons, ih]
      | emitted path text => simpa only [visitCounts, Nat.add_assoc] using ih (set + 1)

theorem late_append (left : Nat) (log log' : List Event) :
    late left (log ++ log') = (late left log || late (left - (emitted log).length) log') := by
  have hshift : (visitCounts (emitted log).length log').any (left ≤ ·) =
      (visitCounts 0 log').any (left - (emitted log).length ≤ ·) := by
    rw [← Nat.add_zero (emitted log).length, visitCounts_add, List.any_map]
    congr 1
    funext count
    simp only [Function.comp_apply, Nat.add_zero, decide_eq_decide]
    omega
  simp only [late, visitCounts_append, List.any_append, Nat.zero_add, hshift]

@[simp] theorem late_nil (left : Nat) : late left [] = false := rfl

@[simp] theorem late_asked (left : Nat) (keys : List Text) (isLast : Bool) (rest : List Event) :
    late left (.asked keys isLast :: rest) = late left rest := rfl

@[simp] theorem late_entered (left : Nat) (keys : List Text) (rest : List Event) :
    late left (.entered keys :: rest) = (decide (left = 0) || late left rest) := by
  simp [late, visitCounts]

@[simp] theorem late_emitted (left : Nat) (path text : Text) (rest : List Event) :
    late left (.emitted path text :: rest) = late (left - 1) rest :=
  late_append left [.emitted path text] rest

theorem late_of_le {left left' : Nat} {log : List Event} (hleft : left' ≤ left)
    (h : late left log = true) : late left' log = true := by
  obtain ⟨count, hcount, hle⟩ := List.any_eq_true.mp h
  exact List.any_eq_true.mpr ⟨count, hcount, by simp only [decide_eq_true_eq] at *; omega⟩

-- More events only make a visit come later.
theorem late_of_sublist {log log' : List Event} (hsub : log.Sublist log') {left : Nat}
    (h : late left log = true) : late left log' = true := by
  induction hsub generalizing left with
  | slnil => exact h
  | cons event _ ih =>
      cases event with
      | asked keys isLast => exact ih h
      | entered keys =>
          rw [late_entered, ih h, Bool.or_true]
      | emitted path text =>
          rw [late_emitted]
          exact ih (late_of_le (Nat.sub_le left 1) h)
  | cons_cons event _ ih =>
      cases event with
      | asked keys isLast => exact ih h
      | entered keys =>
          rw [late_entered, Bool.or_eq_true] at h ⊢
          exact h.imp_right ih
      | emitted path text =>
          rw [late_emitted] at h ⊢
          exact ih h

namespace Walk

variable {ε : Type} {walk : Walk ε}

theorem emissions_eq (walk : Walk ε) : walk.emissions = emitted walk.log := by
  unfold emissions emitted log
  congr 1

-- For each visit of a walk in order, how many tags were set before it. The root is
-- visited first, before anything is recorded.
def arrivals (walk : Walk ε) : List Nat :=
  0 :: visitCounts 0 walk.log

@[simp] theorem arrivals_asked (keys : List Text) (isLast : Bool) :
    (walk.record (.asked keys isLast)).arrivals = walk.arrivals := by
  simp [arrivals, visitCounts_append, visitCounts]

@[simp] theorem arrivals_entered (keys : List Text) :
    (walk.record (.entered keys)).arrivals = walk.arrivals ++ [walk.emissions.length] := by
  simp [arrivals, visitCounts_append, visitCounts, emissions_eq]

@[simp] theorem arrivals_emit_ok (path text : Text) :
    (walk.emit path (.ok text)).arrivals = walk.arrivals := by
  simp [arrivals, visitCounts_append, visitCounts]

end Walk

end SpanTags
