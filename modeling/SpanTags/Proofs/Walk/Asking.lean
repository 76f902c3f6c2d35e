import SpanTags.Proofs.Walk.Arrival
import SpanTags.Proofs.Walk.Visit

namespace SpanTags

-- The keys that a question or a move is about.
def Event.keys? : Event → Option (List Text)
  | .asked keys _ => some keys
  | .entered keys => some keys
  | .emitted _ _ => none

namespace Node

variable (node : Node) (entry : Text × Value)

-- The place of an entry of the container at the place.
def child : Node :=
  ⟨node.way ++ [entry], entry.2⟩

@[simp] theorem keys_child : (node.child entry).keys = node.keys ++ [entry.1] := by
  simp [child, keys]

def question : Event :=
  .asked (node.keys ++ [entry.1]) (!entry.2.isContainer)

-- The entries that a visit to the place goes through if `left` tags are left.
def opened (maxDepth : Int) (left : Nat) : List (Text × Value) :=
  if left = 0 ∨ maxDepth ≤ node.keys.length then [] else node.value.children

theorem opened_sublist (maxDepth : Int) (left : Nat) :
    (node.opened maxDepth left).Sublist node.value.children := by
  unfold opened
  split
  · exact List.nil_sublist _
  · exact List.Sublist.refl _

-- The places at and below the place.
def nodes : List Node :=
  node.value.nodesAt node.way

variable {node entry}

theorem mem_nodes_self : node ∈ node.nodes := by
  rw [nodes, Value.nodesAt_eq]
  exact List.mem_cons_self

theorem nodes_child_subset (h : entry ∈ node.value.children) :
    (node.child entry).nodes ⊆ node.nodes := by
  intro inner hinner
  rw [nodes, Value.nodesAt_eq]
  exact List.mem_cons_of_mem _ (List.mem_flatMap.mpr ⟨entry, h, hinner⟩)

end Node

namespace Walk

variable {ε : Type}

section Relation

variable (mask : Mask ε) (maxDepth : Int)

def answer (node : Node) (entry : Text × Value) : Except ε Bool :=
  mask.canTag (mask.cursorAfter node.keys) entry.1 (!entry.2.isContainer)

-- What is recorded while a walk with `left` tags left goes through entries of the container
-- at a place, and whether it comes to the end of them. A visit that goes through no entries
-- may set a tag.
inductive Asks : Node → List (Text × Value) → Nat → List Event → Bool → Prop
  | done {node : Node} {left : Nat} : Asks node [] left [] true
  | refused {node : Node} {entry : Text × Value} {rest : List (Text × Value)} {left : Nat}
      {log : List Event} {whole : Bool} (hanswer : answer mask node entry = .ok false)
      (hrest : Asks node rest left log whole) :
      Asks node (entry :: rest) left (node.question entry :: log) whole
  | failed {node : Node} {entry : Text × Value} {rest : List (Text × Value)} {left : Nat}
      {fault : ε} (hanswer : answer mask node entry = .error fault) :
      Asks node (entry :: rest) left [node.question entry] false
  | stopped {node : Node} {entry : Text × Value} {rest : List (Text × Value)} {left : Nat}
      {inside tags : List Event} (hanswer : answer mask node entry = .ok true)
      (htags : ∀ event ∈ tags, event.keys? = none)
      (hinside : Asks (node.child entry) ((node.child entry).opened maxDepth left) left inside
        false) :
      Asks node (entry :: rest) left
        (node.question entry :: .entered (node.child entry).keys :: (inside ++ tags)) false
  | admitted {node : Node} {entry : Text × Value} {rest : List (Text × Value)} {left : Nat}
      {inside tags log : List Event} {whole : Bool} (hanswer : answer mask node entry = .ok true)
      (htags : ∀ event ∈ tags, event.keys? = none)
      (hinside : Asks (node.child entry) ((node.child entry).opened maxDepth left) left inside
        true)
      (hrest : Asks node rest (left - (emitted (inside ++ tags)).length) log whole) :
      Asks node (entry :: rest) left
        (node.question entry :: .entered (node.child entry).keys :: (inside ++ tags) ++ log) whole

end Relation

variable {mask : Mask ε} {maxDepth : Int} {root : Text} {walk middle later : Walk ε}
  {events events' : List Event} {whole : Bool}

-- A walk goes on through the events, and all of them are there unless it comes to a fault.
structure Records (events : List Event) (whole : Bool) (walk later : Walk ε) : Prop where
  log : later.log = walk.log ++ events
  left : later.left = walk.left - (emitted events).length
  fault : later.fault.isNone = whole

namespace Records

theorem refl (h : walk.fault = none) : Records [] true walk walk :=
  ⟨by simp, rfl, by simp [h]⟩

theorem mark (h : walk.fault = none) : Records [] true walk walk.mark :=
  ⟨(refl h).log, (refl h).left, (refl h).fault⟩

theorem trans (h : Records events true walk middle) (h' : Records events' whole middle later) :
    Records (events ++ events') whole walk later where
  log := by rw [h'.log, h.log, List.append_assoc]
  left := by rw [h'.left, h.left, emitted_append, List.length_append, Nat.sub_sub]
  fault := h'.fault

theorem asked (h : walk.fault = none) (keys : List Text) (isLast : Bool) :
    Records [.asked keys isLast] true walk (walk.record (.asked keys isLast)) :=
  ⟨log_record _, rfl, by simp [record, h]⟩

theorem entered (h : walk.fault = none) (keys : List Text) :
    Records [.entered keys] true walk (walk.record (.entered keys)) :=
  ⟨log_record _, rfl, by simp [record, h]⟩

theorem emit (h : walk.fault = none) (path text : Text) :
    Records [.emitted path text] true walk (walk.emit path (.ok text)) :=
  ⟨log_emit_ok path text, rfl, by simp [Walk.emit, record, h]⟩

theorem fail (h : Records events true walk later) (fault : WalkFault ε) :
    Records events false walk (later.fail fault) :=
  ⟨h.log, h.left, rfl⟩

end Records

theorem enter_of_fault {cursor : mask.Cursor} {keys : List Text} {key : Except TooManyDigits Text}
    {isLast : Bool} {inside : List Text → mask.Cursor → Walk ε → Walk ε}
    (h : walk.fault.isNone = false) : walk.enter mask cursor keys key isLast inside = walk := by
  obtain ⟨fault, hfault⟩ := Option.isSome_iff_exists.mp (Option.isNone_eq_false_iff.mp h)
  simp only [enter, hfault]

-- Nothing is asked any more after a fault.
theorem visitChildren_of_fault {keys : List Text} {cursor : mask.Cursor}
    (h : walk.fault.isNone = false) (children : List (Text × Value)) :
    visitChildren mask maxDepth root keys cursor children walk = walk := by
  induction children with
  | nil => rfl
  | cons child rest ih =>
      rw [visitChildren, List.foldl_cons, enter_of_fault h]
      exact ih

section Visit

variable {node : Node}

theorem enter_eq_match_answer (hf : walk.fault = none) (entry : Text × Value)
    (inside : List Text → mask.Cursor → Walk ε → Walk ε) :
    walk.enter mask (mask.cursorAfter node.keys) node.keys (.ok entry.1) (!entry.2.isContainer)
        inside =
      match answer mask node entry with
      | .error fault => (walk.record (node.question entry)).fail (.mask fault)
      | .ok false => walk.record (node.question entry)
      | .ok true =>
        inside (node.child entry).keys (mask.cursorAfter (node.child entry).keys)
          ((walk.record (node.question entry)).record (.entered (node.child entry).keys)) := by
  rw [Node.keys_child, Mask.cursorAfter_concat]
  simp only [enter, hf]
  rfl

-- What a visit to a place records: what happens inside, or a tag.
def VisitAsks (mask : Mask ε) (maxDepth : Int) (root : Text) (node : Node) : Prop :=
  ∀ walk : Walk ε, walk.fault = none → ∃ inside tags whole,
    (∀ event ∈ tags, event.keys? = none) ∧
    Asks mask maxDepth node (node.opened maxDepth walk.left) walk.left inside whole ∧
    Records (inside ++ tags) whole walk
      (visit mask maxDepth root node.keys (mask.cursorAfter node.keys) node.value walk)

theorem visitChildren_asks {children : List (Text × Value)}
    (h : ∀ child ∈ children, VisitAsks mask maxDepth root (node.child child))
    (hf : walk.fault = none) :
    ∃ events whole, Asks mask maxDepth node children walk.left events whole ∧
      Records events whole walk (visitChildren mask maxDepth root node.keys
        (mask.cursorAfter node.keys) children walk) := by
  induction children generalizing walk with
  | nil => exact ⟨[], true, .done, .refl hf⟩
  | cons child rest ih =>
      obtain ⟨hchild, hrest⟩ := List.forall_mem_cons.mp h
      have hasked : Records [node.question child] true walk
          (walk.record (node.question child)) := .asked hf _ _
      have hf' : (walk.record (node.question child)).fault = none := hf
      rw [visitChildren, List.foldl_cons, enter_eq_match_answer hf, ← visitChildren]
      cases hanswer : answer mask node child with
      | error fault =>
          refine ⟨_, false, .failed hanswer, ?_⟩
          rw [visitChildren_of_fault rfl]
          exact hasked.fail _
      | ok admitted =>
          cases admitted with
          | false =>
              obtain ⟨events, whole, hasks, hrecords⟩ := ih hrest hf'
              exact ⟨_, whole, .refused hanswer hasks, hasked.trans hrecords⟩
          | true =>
              have hentered := hasked.trans (.entered hf' (node.child child).keys)
              obtain ⟨inside, tags, whole, htags, hinside, hvisit⟩ :=
                hchild ((walk.record (node.question child)).record
                  (.entered (node.child child).keys)) hf
              have hfirst := hentered.trans hvisit
              cases whole with
              | false =>
                  refine ⟨_, false, .stopped hanswer htags hinside, ?_⟩
                  exact (visitChildren_of_fault hvisit.fault rest).symm ▸ hfirst
              | true =>
                  have hnext := Option.isNone_iff_eq_none.mp hvisit.fault
                  obtain ⟨events, whole, hasks, hrecords⟩ := ih hrest hnext
                  rw [hfirst.left] at hasks
                  exact ⟨_, whole, .admitted hanswer htags hinside hasks,
                    hfirst.trans hrecords⟩

theorem visit_asks {v : Value} (hv : v.Plain) :
    ∀ way, VisitAsks mask maxDepth root ⟨way, v⟩ := by
  refine Value.Plain.induction
    (motive := fun v => ∀ way, VisitAsks mask maxDepth root ⟨way, v⟩) ?_ ?_ hv
  · intro s hs way walk hf
    have hnone : Node.opened ⟨way, .scalar s⟩ maxDepth walk.left = [] := ite_self _
    have hdone : Asks mask maxDepth ⟨way, .scalar s⟩ [] walk.left [] true := .done
    rw [visit_scalar hs, hnone]
    split
    · exact ⟨[], [], true, List.forall_mem_nil _, hdone, .mark hf⟩
    · exact ⟨[], [_], true, List.forall_mem_singleton.mpr rfl, hdone, .emit hf _ _⟩
  · intro v hv hc ih way walk hf
    rw [visit_container hv hc]
    by_cases hleft : walk.left = 0
    · rw [if_pos hleft, Node.opened, if_pos (.inl hleft)]
      exact ⟨[], [], true, List.forall_mem_nil _, .done, .mark hf⟩
    · by_cases hdepth : maxDepth ≤ (Node.mk way v).keys.length
      · rw [if_neg hleft, if_pos hdepth, Node.opened, if_pos (.inr hdepth)]
        exact ⟨[], [_], true, List.forall_mem_singleton.mpr rfl, .done, .emit hf _ _⟩
      · have hchildren : ∀ child ∈ v.children,
            VisitAsks mask maxDepth root (Node.child ⟨way, v⟩ child) :=
          fun child hchild => ih child hchild _
        obtain ⟨events, whole, hasks, hrecords⟩ := visitChildren_asks hchildren hf
        rw [if_neg hleft, if_neg hdepth, Node.opened, if_neg (not_or_intro hleft hdepth)]
        exact ⟨events, [], whole, List.forall_mem_nil _, hasks,
          (List.append_nil events).symm ▸ hrecords⟩

-- A whole walk is a visit to the root.
theorem run_asks {v : Value} (hv : v.Plain) (mask : Mask ε) (root : Text) (limits : Limits) :
    ∃ inside tags whole, (∀ event ∈ tags, event.keys? = none) ∧
      Asks mask limits.maxDepth ⟨[], v⟩
        (Node.opened ⟨[], v⟩ limits.maxDepth (limits.maxTags - 1).toNat)
        (limits.maxTags - 1).toNat inside whole ∧
      (run mask root limits v).log = inside ++ tags ∧
      (run mask root limits v).fault.isNone = whole := by
  have hvisit : VisitAsks mask limits.maxDepth root ⟨[], v⟩ := visit_asks hv []
  obtain ⟨inside, tags, whole, htags, hasks, hrecords⟩ := hvisit (start limits) rfl
  exact ⟨inside, tags, whole, htags, hasks, hrecords.log, hrecords.fault⟩

end Visit

end Walk

end SpanTags
