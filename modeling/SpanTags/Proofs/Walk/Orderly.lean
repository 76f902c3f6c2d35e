import SpanTags.Proofs.Walk.Asking

namespace SpanTags

section Orderly

variable {ε : Type}

-- What may come right after the events before it: a question about an entry of a container
-- that the walk moved to, or a move to an entry that the mask was just asked about and
-- admitted.
def Allowed (mask : Mask ε) (nodes : List Node) (before : List Event) : Event → Prop
  | .asked keys isLast => ∃ node ∈ nodes, .entered node.keys ∈ before ∧
      ∃ entry ∈ node.value.children, .asked keys isLast = node.question entry
  | .entered keys => ∃ path key isLast, keys = path ++ [key] ∧
      before.getLast? = some (.asked keys isLast) ∧
      mask.canTag (mask.cursorAfter path) key isLast = .ok true
  | .emitted _ _ => True

-- Each event of the log may come right after those before it.
def Orderly (mask : Mask ε) (nodes : List Node) : List Event → List Event → Prop
  | _, [] => True
  | before, event :: rest =>
    Allowed mask nodes before event ∧ Orderly mask nodes (before ++ [event]) rest

variable {mask : Mask ε} {nodes : List Node} {before log log' : List Event}

theorem Orderly.append (h : Orderly mask nodes before log)
    (h' : Orderly mask nodes (before ++ log) log') : Orderly mask nodes before (log ++ log') := by
  induction log generalizing before with
  | nil => rwa [List.append_nil] at h'
  | cons event rest ih =>
      rw [List.append_cons] at h'
      exact ⟨h.1, ih h.2 h'⟩

theorem Orderly.of_tags (h : ∀ event ∈ log, event.keys? = none) :
    Orderly mask nodes before log := by
  induction log generalizing before with
  | nil => trivial
  | cons event rest ih =>
      obtain ⟨hevent, hrest⟩ := List.forall_mem_cons.mp h
      refine ⟨?_, ih hrest⟩
      cases event with
      | emitted path text => trivial
      | _ => contradiction

theorem Orderly.allowed {front back : List Event} {event : Event}
    (h : Orderly mask nodes before (front ++ event :: back)) :
    Allowed mask nodes (before ++ front) event := by
  induction front generalizing before with
  | nil => simpa using h.1
  | cons first rest ih => simpa using ih h.2

end Orderly

namespace Walk.Asks

variable {ε : Type} {mask : Mask ε} {maxDepth : Int} {node : Node} {entry : Text × Value}
  {entries : List (Text × Value)} {left : Nat} {log inside tags : List Event} {whole : Bool}

section Orderly

variable {nodes : List Node} {before : List Event}
  (hnodes : node.nodes ⊆ nodes) (hbefore : .entered node.keys ∈ before)

include hnodes hbefore

theorem orderly_question (hentry : entry ∈ node.value.children) :
    Orderly mask nodes before [node.question entry] :=
  ⟨⟨node, hnodes Node.mem_nodes_self, hbefore, entry, hentry, rfl⟩, trivial⟩

theorem orderly_segment (hentry : entry ∈ node.value.children)
    (hanswer : answer mask node entry = .ok true) (htags : ∀ event ∈ tags, event.keys? = none)
    (hinside : ∀ before, .entered (node.child entry).keys ∈ before →
      Orderly mask nodes before inside) :
    Orderly mask nodes before
      (node.question entry :: .entered (node.child entry).keys :: (inside ++ tags)) := by
  have hentered : Orderly mask nodes (before ++ [node.question entry])
      [.entered (node.child entry).keys] := by
    refine ⟨⟨node.keys, entry.1, !entry.2.isContainer, Node.keys_child _ _, ?_, hanswer⟩, trivial⟩
    rw [List.getLast?_concat, Node.question, Node.keys_child]
  refine (orderly_question hnodes hbefore hentry).append (hentered.append ?_)
  exact (hinside _ (List.mem_append_right _ (List.mem_singleton_self _))).append (.of_tags htags)

end Orderly

theorem orderly {nodes : List Node} {before : List Event}
    (h : Asks mask maxDepth node entries left log whole) (hentries : entries ⊆ node.value.children)
    (hnodes : node.nodes ⊆ nodes) (hbefore : .entered node.keys ∈ before) :
    Orderly mask nodes before log := by
  induction h generalizing before with
  | done => trivial
  | failed hanswer =>
      exact orderly_question hnodes hbefore (hentries List.mem_cons_self)
  | refused hanswer hrest ih =>
      exact (orderly_question hnodes hbefore (hentries List.mem_cons_self)).append
        (ih (List.subset_of_cons_subset hentries) hnodes (List.mem_append_left _ hbefore))
  | stopped hanswer htags hinside ih =>
      have hentry := hentries List.mem_cons_self
      exact orderly_segment hnodes hbefore hentry hanswer htags fun before hbefore =>
        ih (Node.opened_sublist _ _ _).subset
          (List.Subset.trans (Node.nodes_child_subset hentry) hnodes) hbefore
  | admitted hanswer htags hinside hrest ihinside ihrest =>
      have hentry := hentries List.mem_cons_self
      have hsegment := orderly_segment hnodes hbefore hentry hanswer htags fun before hbefore =>
        ihinside (Node.opened_sublist _ _ _).subset
          (List.Subset.trans (Node.nodes_child_subset hentry) hnodes) hbefore
      exact hsegment.append
        (ihrest (List.subset_of_cons_subset hentries) hnodes (List.mem_append_left _ hbefore))

end Walk.Asks

theorem Walk.orderly_run {ε : Type} {v : Value} (hv : v.Plain) (mask : Mask ε) (root : Text)
    (limits : Limits) :
    Orderly mask v.nodes [.entered []] (run mask root limits v).log := by
  obtain ⟨inside, tags, whole, htags, hasks, hlog, -⟩ := run_asks hv mask root limits
  rw [hlog]
  have hinside := hasks.orderly (Node.opened_sublist _ _ _).subset (List.Subset.refl v.nodes)
    (List.mem_singleton_self _)
  exact hinside.append (.of_tags htags)

end SpanTags
