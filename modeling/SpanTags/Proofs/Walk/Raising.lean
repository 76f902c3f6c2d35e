import SpanTags.Proofs.Walk.Flattening
import SpanTags.Proofs.Walk.Orderly
import SpanTags.Proofs.Walk.Thorough

namespace SpanTags

-- A question that a mask fails on if it fails on these keys.
def Event.raises (failing : List Text) : Event → Bool
  | .asked keys _ => keys.getLast?.any (· ∈ failing)
  | _ => false

@[simp] theorem Event.raises_asked {failing path : List Text} {key : Text} {isLast : Bool} :
    (asked (path ++ [key]) isLast).raises failing = decide (key ∈ failing) := by
  simp [raises]

theorem Mask.canTag_refusing_of_notMem {denied failing : List Text} {key : Text}
    (h : key ∉ failing) (cursor : (refusing denied failing).Cursor) (isLast : Bool) :
    (refusing denied failing).canTag cursor key isLast = .ok (decide (key ∉ denied)) :=
  if_neg h

namespace Walk

section Log

variable {ε : Type} {root : Text} {walk later : Walk ε}

-- A question is recorded first, whatever the answer is.
theorem log_record_asked_prefix_enter {mask : Mask ε} {cursor : mask.Cursor} {keys : List Text}
    {key : Text} {isLast : Bool} {inside : List Text → mask.Cursor → Walk ε → Walk ε}
    (hinside : ∀ keys cursor walk, Steps root walk (inside keys cursor walk))
    (hf : walk.fault = none) :
    (walk.record (.asked (keys ++ [key]) isLast)).log <+:
      (walk.enter mask cursor keys (.ok key) isLast inside).log := by
  simp only [enter, hf]
  split
  · exact List.prefix_refl _
  · exact List.prefix_refl _
  · exact ((Step.entered _).steps.trans (hinside _ _ _)).prefix_log

end Log

section Cuts

variable {denied failing : List Text} {root : Text} {maxDepth : Int} {full walk : Walk Text}

-- No question so far is one that the mask fails on.
def Unraised (failing : List Text) (walk : Walk Text) : Prop :=
  ∀ event ∈ walk.log, event.raises failing = false

theorem Unraised.record (h : walk.Unraised failing) {event : Event}
    (hevent : event.raises failing = false) : (walk.record event).Unraised failing := by
  intro other hother
  rw [log_record, List.mem_append, List.mem_singleton] at hother
  rcases hother with hother | rfl
  · exact h other hother
  · exact hevent

theorem Unraised.emit (h : walk.Unraised failing) (path text : Text) :
    (walk.emit path (.ok text)).Unraised failing :=
  h.record rfl

-- A walk with a mask that may fail, beside the one with a mask that never does: both are the
-- same until the first question that the mask fails on, and nothing comes after that.
inductive Cuts (failing : List Text) : Walk Text → Walk Text → Prop
  | same {walk : Walk Text} (hlog : walk.Unraised failing) : Cuts failing walk walk
  | cut {full walk : Walk Text} {front back : List Event} {path : List Text} {key : Text}
      {isLast : Bool} (hkey : key ∈ failing)
      (hfront : ∀ event ∈ front, event.raises failing = false)
      (hfull : full.log = front ++ .asked (path ++ [key]) isLast :: back)
      (hlog : walk.log = front ++ [.asked (path ++ [key]) isLast])
      (hfault : walk.fault = some (.mask key)) : Cuts failing full walk

namespace Cuts

variable {keys : List Text} {key : Text} {isLast : Bool}
  {cursor : (Mask.refusing denied []).Cursor} {cursor' : (Mask.refusing denied failing).Cursor}
  {inside : List Text → (Mask.refusing denied []).Cursor → Walk Text → Walk Text}
  {inside' : List Text → (Mask.refusing denied failing).Cursor → Walk Text → Walk Text}

theorem enter (hsteps : ∀ keys cursor walk, Steps root walk (inside keys cursor walk))
    (hinside : ∀ keys cursor cursor' walk, walk.Unraised failing →
      Cuts failing (inside keys cursor walk) (inside' keys cursor' walk))
    (h : Cuts failing full walk) :
    Cuts failing (full.enter (Mask.refusing denied []) cursor keys (.ok key) isLast inside)
      (walk.enter (Mask.refusing denied failing) cursor' keys (.ok key) isLast inside') := by
  cases h with
  | cut hkey hfront hfull hlog hfault =>
      -- the other walk only records more
      have hstop : walk.fault.isNone = false := by rw [hfault]; rfl
      have hwalk : walk.enter (Mask.refusing denied failing) cursor' keys (.ok key) isLast inside' =
          walk := enter_of_fault hstop
      have hlater : Steps root full
          (full.enter (Mask.refusing denied []) cursor keys (.ok key) isLast inside) :=
        enter_steps hsteps full
      obtain ⟨more, hmore⟩ := hlater.prefix_log
      rw [hfull, List.append_assoc, List.cons_append] at hmore
      rw [hwalk]
      exact .cut hkey hfront hmore.symm hlog hfault
  | same hlog =>
      by_cases hf : full.fault = none
      · by_cases hkey : key ∈ failing
        · have hanswer : (Mask.refusing denied failing).canTag cursor' key isLast = .error key :=
            if_pos hkey
          have hlater : (full.record (.asked (keys ++ [key]) isLast)).log <+:
              (full.enter (Mask.refusing denied []) cursor keys (.ok key) isLast inside).log :=
            log_record_asked_prefix_enter hsteps hf
          obtain ⟨more, hmore⟩ := hlater
          rw [log_record, List.append_assoc, List.singleton_append] at hmore
          simp only [Walk.enter, hf, hanswer] at hmore ⊢
          exact .cut hkey hlog hmore.symm (log_record _) rfl
        · have hanswer : (Mask.refusing denied failing).canTag cursor' key isLast =
              .ok (decide (key ∉ denied)) := Mask.canTag_refusing_of_notMem hkey cursor' isLast
          have hanswer' : (Mask.refusing denied []).canTag cursor key isLast =
              .ok (decide (key ∉ denied)) :=
            Mask.canTag_refusing_of_notMem List.not_mem_nil cursor isLast
          have hasked : (full.record (.asked (keys ++ [key]) isLast)).Unraised failing :=
            hlog.record (by simpa using hkey)
          simp only [Walk.enter, hf, hanswer, hanswer']
          cases decide (key ∉ denied) with
          | false => exact .same hasked
          | true => exact hinside _ _ _ _ (hasked.record rfl)
      · have hstop : full.fault.isNone = false := Option.isNone_eq_false_iff.mpr
          (Option.isSome_iff_ne_none.mpr hf)
        rw [enter_of_fault hstop, enter_of_fault hstop]
        exact .same hlog

theorem visitChildren {children : List (Text × Value)}
    (hchildren : ∀ child ∈ children, ∀ keys cursor cursor' walk, walk.Unraised failing →
      Cuts failing (visit (Mask.refusing denied []) maxDepth root keys cursor child.2 walk)
        (visit (Mask.refusing denied failing) maxDepth root keys cursor' child.2 walk))
    (h : Cuts failing full walk) :
    Cuts failing
      (Walk.visitChildren (Mask.refusing denied []) maxDepth root keys cursor children full)
      (Walk.visitChildren (Mask.refusing denied failing) maxDepth root keys cursor' children
        walk) := by
  induction children generalizing full walk with
  | nil => exact h
  | cons child rest ih =>
      obtain ⟨hchild, hrest⟩ := List.forall_mem_cons.mp hchildren
      exact ih hrest (h.enter (fun keys cursor walk => visit_steps keys cursor child.2 walk) hchild)

end Cuts

-- Walks from the same start with the two masks.
theorem visit_cuts {v : Value} (hv : v.Plain) :
    ∀ keys cursor cursor' walk, walk.Unraised failing →
      Cuts failing (visit (Mask.refusing denied []) maxDepth root keys cursor v walk)
        (visit (Mask.refusing denied failing) maxDepth root keys cursor' v walk) := by
  refine Value.Plain.induction (motive := fun v => ∀ keys cursor cursor' walk,
    walk.Unraised failing →
      Cuts failing (visit (Mask.refusing denied []) maxDepth root keys cursor v walk)
        (visit (Mask.refusing denied failing) maxDepth root keys cursor' v walk)) ?_ ?_ hv
  · intro s hs keys cursor cursor' walk hwalk
    rw [visit_scalar hs, visit_scalar hs]
    split
    · exact .same hwalk
    · exact .same (hwalk.emit _ _)
  · intro v hv hc ih keys cursor cursor' walk hwalk
    rw [visit_container hv hc, visit_container hv hc]
    split
    · exact .same hwalk
    · split
      · exact .same (hwalk.emit _ _)
      · exact .visitChildren ih (.same hwalk)

theorem run_cuts {v : Value} (hv : v.Plain) (limits : Limits) :
    Cuts failing (run (Mask.refusing denied []) root limits v)
      (run (Mask.refusing denied failing) root limits v) :=
  visit_cuts hv [] _ _ (start limits) (List.forall_mem_nil _)

section First

variable {front front' back back' : List Event} {event event' : Event}

-- The first question that a mask fails on is the same one however the log is taken apart.
theorem eq_of_first_raise (h : front ++ event :: back = front' ++ event' :: back')
    (hfront : ∀ e ∈ front, e.raises failing = false) (hevent : event.raises failing = true)
    (hfront' : ∀ e ∈ front', e.raises failing = false) (hevent' : event'.raises failing = true) :
    front = front' ∧ event = event' := by
  have hbefore {front : List Event} (back : List Event) {event : Event}
      (hfront : ∀ e ∈ front, e.raises failing = false) (hevent : event.raises failing = true) :
      (front ++ event :: back).takeWhile (fun e => !e.raises failing) = front := by
    rw [List.takeWhile_append_of_pos (by simpa using hfront),
      List.takeWhile_cons_of_neg (by simp [hevent]), List.append_nil]
  have hsame : front = front' := by
    rw [← hbefore back hfront hevent, h, hbefore back' hfront' hevent']
  subst hsame
  exact ⟨rfl, (List.cons.inj (List.append_cancel_left h)).1⟩

end First

theorem Cuts.eq_of_unraised (h : Cuts failing full walk) (hfull : full.Unraised failing) :
    walk = full := by
  cases h with
  | same hlog => rfl
  | cut hkey hfront hlog =>
      have hraised := hfull (.asked _ _) (hlog ▸ List.mem_append_right _ List.mem_cons_self)
      rw [Event.raises_asked, decide_eq_false_iff_not] at hraised
      contradiction

theorem Cuts.of_first_raise (h : Cuts failing full walk) {front back : List Event}
    {path : List Text} {key : Text} {isLast : Bool}
    (hfull : full.log = front ++ .asked (path ++ [key]) isLast :: back) (hkey : key ∈ failing)
    (hfront : ∀ event ∈ front, event.raises failing = false) :
    walk.log = front ++ [.asked (path ++ [key]) isLast] ∧ walk.fault = some (.mask key) := by
  have hraises : (Event.asked (path ++ [key]) isLast).raises failing = true := by simpa using hkey
  cases h with
  | same hlog =>
      have hnone := hlog (.asked (path ++ [key]) isLast)
        (hfull ▸ List.mem_append_right _ List.mem_cons_self)
      rw [hraises] at hnone
      contradiction
  | cut hkey' hfront' hfull' hlog hfault =>
      obtain ⟨rfl, hevent⟩ := eq_of_first_raise (hfull.symm.trans hfull') hfront hraises hfront'
        (by simpa using hkey')
      obtain ⟨hkeys, -⟩ := Event.asked.inj hevent
      obtain ⟨-, hsame⟩ := List.append_inj' hkeys rfl
      rw [← hevent] at hlog
      rw [← (List.cons.inj hsame).1] at hfault
      exact ⟨hlog, hfault⟩

end Cuts

-- A mask that refuses some keys and fails on others is asked about entries of containers that
-- the walk moved to, and the walk moves to an entry right after the mask admitted it. Of every
-- container that is gone through, the mask is asked about each entry once and in order. The
-- walk is the one with the mask that never fails up to the first question about a key that the
-- mask fails on, and there it ends with the failure.
theorem run_refusing {v : Value} (hv : v.Plain) (hkeys : Node.KeyedOnce ⟨[], v⟩)
    (denied failing : List Text) (root : Text) (limits : Limits) :
    let mask := Mask.refusing denied failing
    let walk := run mask root limits v
    let full := run (Mask.refusing denied []) root limits v
    (∀ front event back, walk.log = front ++ event :: back →
      Allowed mask v.nodes (.entered [] :: front) event) ∧
    (∀ node ∈ v.nodes, Thorough limits.maxDepth (limits.maxTags - 1).toNat walk.fault.isNone
      (.entered [] :: walk.log) node) ∧
    ((∀ event ∈ full.log, event.raises failing = false) →
      walk = full ∧ walk.result = .ok full.tags) ∧
    ∀ front path key isLast back, full.log = front ++ .asked (path ++ [key]) isLast :: back →
      key ∈ failing → (∀ event ∈ front, event.raises failing = false) →
      walk.log = front ++ [.asked (path ++ [key]) isLast] ∧
        walk.result = .error (.mask key) := by
  intro mask walk full
  have hcuts : Cuts failing full walk := run_cuts hv limits
  refine ⟨fun front event back hlog => ?_, thorough_run hv hkeys mask root limits, ?_, ?_⟩
  · have horderly := orderly_run hv mask root limits
    rw [hlog] at horderly
    exact horderly.allowed
  · intro hnone
    have hfault : full.fault = none :=
      (run_advances (Mask.refusing_total denied) hv root limits).fault
    have hsame := hcuts.eq_of_unraised hnone
    exact ⟨hsame, by rw [hsame, result, hfault]⟩
  · intro front path key isLast back hfull hkey hfront
    obtain ⟨hlog, hfault⟩ := hcuts.of_first_raise hfull hkey hfront
    exact ⟨hlog, by rw [result, hfault]⟩

-- The mask fails after it refused an entry.
theorem run_refusing_raised :
    let v : Value := .object [("a", .object [("b", .int 1), ("x", .null)]), ("r", .tuple []),
      ("c", .bool true)]
    let walk := run (Mask.refusing ["x"] ["r"]) "p" ⟨10, 5⟩ v
    v.Plain ∧ Node.KeyedOnce ⟨[], v⟩ ∧
      walk.log = [.asked ["a"] false, .entered ["a"], .asked ["a", "b"] true, .entered ["a", "b"],
        .emitted "p.a.b" "1", .asked ["a", "x"] true, .asked ["r"] false] ∧
      walk.result = .error (.mask "r") := by
  intro v walk
  have hv : v.Plain := by
    simp only [v, Value.plain_object_iff, Value.plain_tuple_iff, Value.plain_scalar_iff,
      Value.int, Value.null, Value.bool, List.mem_cons, List.not_mem_nil, or_false,
      forall_eq_or_imp, forall_eq]
    exact ⟨⟨by decide +kernel, trivial⟩, by simp, trivial⟩
  have hkeys : Node.KeyedOnce ⟨[], v⟩ := by decide
  have hfull : (run (Mask.refusing ["x"] []) "p" ⟨10, 5⟩ v).log =
      [.asked ["a"] false, .entered ["a"], .asked ["a", "b"] true, .entered ["a", "b"],
        .emitted "p.a.b" "1", .asked ["a", "x"] true] ++ .asked ["r"] false ::
        [.entered ["r"], .asked ["c"] true, .entered ["c"], .emitted "p.c" "true"] := by
    decide +kernel
  obtain ⟨-, -, -, hraised⟩ := run_refusing hv hkeys ["x"] ["r"] "p" ⟨10, 5⟩
  exact ⟨hv, hkeys, hraised _ [] "r" false _ hfull (by decide) (by decide)⟩

end Walk

end SpanTags
