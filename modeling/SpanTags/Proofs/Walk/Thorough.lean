import SpanTags.Proofs.Payload.Decoded
import SpanTags.Proofs.Walk.Asking
import Mathlib.Data.List.TakeWhile

namespace SpanTags

namespace Event

-- The key of a question about an entry of the container at `path`, with what is told of it.
def question? (path : List Text) : Event → Option (Text × Bool)
  | .asked keys isLast => if keys.dropLast = path then keys.getLast?.map (·, isLast) else none
  | _ => none

theorem question?_eq_some_iff {path : List Text} {event : Event} {key : Text} {isLast : Bool} :
    event.question? path = some (key, isLast) ↔ event = .asked (path ++ [key]) isLast := by
  cases event with
  | asked keys other =>
      constructor
      · intro h
        simp only [question?, Option.ite_none_right_eq_some, Option.map_eq_some_iff,
          Prod.mk.injEq] at h
        obtain ⟨rfl, last, hlast, rfl, rfl⟩ := h
        rw [List.dropLast_append_getLast? last hlast]
      · intro h
        obtain ⟨rfl, rfl⟩ := Event.asked.inj h
        simp [question?]
  | entered keys => simp [question?]
  | emitted path text => simp [question?]

end Event

-- The questions about the entries of the container at `path`.
def questions (path : List Text) (log : List Event) : List (Text × Bool) :=
  log.filterMap (Event.question? path)

-- What the mask is told of an entry.
def told (entry : Text × Value) : Text × Bool :=
  (entry.1, !entry.2.isContainer)

theorem questions_append (path : List Text) (log log' : List Event) :
    questions path (log ++ log') = questions path log ++ questions path log' :=
  List.filterMap_append

theorem questions_entered (path keys : List Text) (log : List Event) :
    questions path (.entered keys :: log) = questions path log := rfl

theorem questions_eq_nil_iff {path : List Text} {log : List Event} :
    questions path log = [] ↔ ∀ key isLast, .asked (path ++ [key]) isLast ∉ log := by
  rw [questions, List.filterMap_eq_nil_iff]
  constructor
  · intro h key isLast hmem
    have hnone := h _ hmem
    rw [Event.question?_eq_some_iff.mpr rfl] at hnone
    contradiction
  · intro h event hevent
    refine Option.eq_none_iff_forall_ne_some.mpr fun ⟨key, isLast⟩ hsome => ?_
    obtain rfl := Event.question?_eq_some_iff.mp hsome
    exact h key isLast hevent

namespace Node

variable {node : Node} {entry : Text × Value}

-- No two entries of a container at or below the place have the same key.
def KeyedOnce (node : Node) : Prop :=
  ∀ inner ∈ node.nodes, (inner.value.children.map Prod.fst).Nodup

instance (node : Node) : Decidable node.KeyedOnce :=
  inferInstanceAs (Decidable (∀ inner ∈ node.nodes, (inner.value.children.map Prod.fst).Nodup))

theorem KeyedOnce.child (h : node.KeyedOnce) (hentry : entry ∈ node.value.children) :
    (node.child entry).KeyedOnce :=
  fun inner hinner => h inner (nodes_child_subset hentry hinner)

end Node

-- Entries of a container that are found under keys of their own.
structure Distinct (node : Node) (entries : List (Text × Value)) : Prop where
  plain : ∀ entry ∈ entries, entry.2.Plain
  nodup : (entries.map Prod.fst).Nodup
  child : ∀ entry ∈ entries, (node.child entry).KeyedOnce

namespace Distinct

variable {node : Node} {entry : Text × Value} {rest : List (Text × Value)}

theorem opened (hplain : node.value.Plain) (hkeys : node.KeyedOnce) (maxDepth : Int)
    (left : Nat) : Distinct node (node.opened maxDepth left) where
  plain child hchild := hplain.children child ((node.opened_sublist maxDepth left).subset hchild)
  nodup := (hkeys node Node.mem_nodes_self).sublist
    ((node.opened_sublist maxDepth left).map Prod.fst)
  child _ hentry := hkeys.child ((node.opened_sublist maxDepth left).subset hentry)

theorem head_notMem (h : Distinct node (entry :: rest)) : entry.1 ∉ rest.map Prod.fst :=
  (List.nodup_cons.mp h.nodup).1

theorem tail (h : Distinct node (entry :: rest)) : Distinct node rest where
  plain := (List.forall_mem_cons.mp h.plain).2
  nodup := (List.nodup_cons.mp h.nodup).2
  child := (List.forall_mem_cons.mp h.child).2

theorem inside (h : Distinct node (entry :: rest)) (maxDepth : Int) (left : Nat) :
    Distinct (node.child entry) ((node.child entry).opened maxDepth left) :=
  opened (h.plain entry List.mem_cons_self) (h.child entry List.mem_cons_self) maxDepth left

end Distinct

-- The way to a place below a container goes through one of its entries.
theorem Value.exists_prefix_of_mem_nodesBelow {entries : List (Text × Value)}
    (hplain : ∀ entry ∈ entries, entry.2.Plain) {way : List (Text × Value)} {inner : Node}
    (h : inner ∈ nodesBelow way entries) :
    ∃ name ∈ entries.map Prod.fst, way.map Prod.fst ++ [name] <+: inner.keys := by
  obtain ⟨entry, hentry, hinner⟩ := List.mem_flatMap.mp h
  refine ⟨entry.1, List.mem_map_of_mem hentry, ?_⟩
  simpa using (hplain entry hentry).prefix_keys hinner

section Under

variable {path keys names names' : List Text} {name : Text} {log log' : List Event}

-- All questions and moves are about entries of these names, or about what is below them.
def Under (path names : List Text) (log : List Event) : Prop :=
  ∀ event ∈ log, ∀ keys, event.keys? = some keys → ∃ name ∈ names, path ++ [name] <+: keys

-- The container is neither moved into nor asked about.
def Silent (keys : List Text) (log : List Event) : Prop :=
  questions keys log = [] ∧ .entered keys ∉ log

theorem silent_of_tags (h : ∀ event ∈ log, event.keys? = none) : Silent keys log := by
  constructor
  · exact questions_eq_nil_iff.mpr fun _ _ hevent => absurd (h _ hevent) (Option.some_ne_none _)
  · exact fun hevent => absurd (h _ hevent) (Option.some_ne_none _)

theorem ne_of_concat_prefix (h : path ++ [name] <+: keys) : path ≠ keys := by
  rintro rfl
  have hlen := h.length_le
  rw [List.length_append, List.length_singleton] at hlen
  omega

namespace Under

theorem of_tags (h : ∀ event ∈ log, event.keys? = none) : Under path names log := by
  intro event hevent keys hkeys
  rw [h event hevent] at hkeys
  contradiction

theorem singleton {event : Event} (h : event.keys? = some (path ++ [name])) :
    Under path [name] [event] := by
  intro other hother keys hkeys
  obtain rfl := List.mem_singleton.mp hother
  obtain rfl := Option.some.inj (h.symm.trans hkeys)
  exact ⟨name, List.mem_singleton_self _, List.prefix_refl _⟩

theorem append (h : Under path names log) (h' : Under path names log') :
    Under path names (log ++ log') :=
  fun event hevent => (List.mem_append.mp hevent).elim (h event) (h' event)

theorem mono (hnames : names ⊆ names') (h : Under path names log) : Under path names' log := by
  intro event hevent keys hkeys
  obtain ⟨name, hname, hstart⟩ := h event hevent keys hkeys
  exact ⟨name, hnames hname, hstart⟩

theorem of_first (h : Under path [name] log) : Under path (name :: names) log :=
  h.mono (List.cons_subset_cons _ (List.nil_subset _))

theorem of_rest (h : Under path names log) : Under path (name :: names) log :=
  h.mono (List.subset_cons_self _ _)

theorem of_below (h : Under (path ++ [name]) names log) : Under path [name] log := by
  intro event hevent keys hkeys
  obtain ⟨_, -, hstart⟩ := h event hevent keys hkeys
  exact ⟨name, List.mem_singleton_self _, (List.prefix_append _ _).trans hstart⟩

theorem questions_eq_nil (h : Under path names log) (hlen : keys.length < path.length) :
    questions keys log = [] := by
  refine questions_eq_nil_iff.mpr fun key isLast hevent => ?_
  obtain ⟨name, -, hstart⟩ := h _ hevent _ rfl
  have hle := hstart.length_le
  simp only [List.length_append, List.length_singleton] at hle
  omega

-- What is under one entry is silent about all that is under another.
theorem silent (h : Under path names log) (hkeys : path ++ [name] <+: keys)
    (hname : name ∉ names) : Silent keys log := by
  have hother {other : Text} (hmem : other ∈ names) : ¬path ++ [other] <+: keys := by
    intro hstart
    have hsame := List.prefix_of_prefix_length_le hkeys hstart (by simp)
    rw [List.prefix_append_right_inj] at hsame
    exact hname ((List.cons_prefix_cons.mp hsame).1 ▸ hmem)
  constructor
  · refine questions_eq_nil_iff.mpr fun key isLast hevent => ?_
    obtain ⟨other, hmem, hstart⟩ := h _ hevent _ rfl
    rcases List.prefix_concat_iff.mp hstart with heq | hstart
    · exact ne_of_concat_prefix hkeys (List.append_inj' heq rfl).1
    · exact hother hmem hstart
  · intro hevent
    obtain ⟨other, hmem, hstart⟩ := h _ hevent _ rfl
    exact hother hmem hstart

end Under

end Under

section Thorough

variable {maxDepth : Int} {left : Nat} {whole whole' : Bool} {log log' : List Event} {node : Node}

-- If the walk moves to the place while tags are left and above the depth limit, then the mask
-- is asked about each of the entries there once and in order, as far as the walk comes.
def Thorough (maxDepth : Int) (left : Nat) (whole : Bool) (log : List Event) (node : Node) :
    Prop :=
  .entered node.keys ∈ log →
    let set := (emitted (log.takeWhile (· ≠ .entered node.keys))).length
    let entries := node.opened maxDepth (left - set)
    questions node.keys log <+: entries.map told ∧
      (whole = true → questions node.keys log = entries.map told)

namespace Thorough

theorem of_notMem (h : .entered node.keys ∉ log) : Thorough maxDepth left whole log node :=
  fun hmem => absurd hmem h

theorem append_silent (h : Thorough maxDepth left whole log node)
    (hsilent : Silent node.keys log') (hwhole : whole' = true → whole = true) :
    Thorough maxDepth left whole' (log ++ log') node := by
  intro hmem
  have hmem' := (List.mem_append.mp hmem).resolve_right hsilent.2
  obtain ⟨hstart, heq⟩ := h hmem'
  have hbefore : (log ++ log').takeWhile (· ≠ .entered node.keys) =
      log.takeWhile (· ≠ .entered node.keys) := by
    rw [List.takeWhile_append, if_neg]
    intro hlen
    have hall := (List.takeWhile_prefix _).eq_of_length hlen
    rw [← hall] at hmem'
    have hne := List.mem_takeWhile_imp hmem'
    simp at hne
  dsimp only
  rw [hbefore, questions_append, hsilent.1, List.append_nil]
  exact ⟨hstart, fun h => heq (hwhole h)⟩

theorem silent_append (hsilent : Silent node.keys log)
    (h : Thorough maxDepth (left - (emitted log).length) whole log' node) :
    Thorough maxDepth left whole (log ++ log') node := by
  intro hmem
  have hmem' := (List.mem_append.mp hmem).resolve_left hsilent.2
  have hbefore : (log ++ log').takeWhile (· ≠ .entered node.keys) =
      log ++ log'.takeWhile (· ≠ .entered node.keys) := by
    refine List.takeWhile_append_of_pos fun event hevent => decide_eq_true ?_
    rintro rfl
    exact hsilent.2 hevent
  dsimp only
  rw [hbefore, questions_append, hsilent.1, emitted_append, List.length_append, ← Nat.sub_sub]
  exact h hmem'

end Thorough

end Thorough

namespace Walk.Asks

variable {ε : Type} {mask : Mask ε} {maxDepth : Int} {node : Node} {entry : Text × Value}
  {entries : List (Text × Value)} {left : Nat} {log inside tags : List Event} {whole : Bool}

-- What is recorded from the question about an entry to the end of the visit to it.
theorem under_segment {names : List Text} (htags : ∀ event ∈ tags, event.keys? = none)
    (h : Under (node.child entry).keys names inside) :
    Under node.keys [entry.1]
      (node.question entry :: .entered (node.child entry).keys :: (inside ++ tags)) := by
  rw [Node.keys_child] at h ⊢
  have hasked : Under node.keys [entry.1] [node.question entry] := .singleton rfl
  have hentered : Under node.keys [entry.1] [.entered (node.keys ++ [entry.1])] := .singleton rfl
  exact hasked.append (hentered.append (h.of_below.append (.of_tags htags)))

theorem under (h : Asks mask maxDepth node entries left log whole) :
    Under node.keys (entries.map Prod.fst) log := by
  induction h with
  | done => exact fun _ hevent => absurd hevent List.not_mem_nil
  | refused hanswer hrest ih => exact (Under.singleton rfl).of_first.append ih.of_rest
  | failed hanswer => exact (Under.singleton rfl).of_first
  | stopped hanswer htags hinside ih => exact (under_segment htags ih).of_first
  | admitted hanswer htags hinside hrest ihinside ihrest =>
      exact (under_segment htags ihinside).of_first.append ihrest.of_rest

theorem questions_question :
    questions node.keys (node.question entry :: log) = told entry :: questions node.keys log := by
  simp [questions, Event.question?, Node.question, told]

theorem questions_segment {names : List Text} (htags : ∀ event ∈ tags, event.keys? = none)
    (h : Under (node.child entry).keys names inside) :
    questions node.keys
      (node.question entry :: .entered (node.child entry).keys :: (inside ++ tags)) =
      [told entry] := by
  have hinside : questions node.keys inside = [] := h.questions_eq_nil (by simp)
  rw [questions_question, questions_entered, questions_append, hinside, (silent_of_tags htags).1]
  rfl

-- The mask is asked about the entries once and in order, as far as the walk comes.
theorem questions_eq (h : Asks mask maxDepth node entries left log whole) :
    questions node.keys log <+: entries.map told ∧
      (whole = true → questions node.keys log = entries.map told) := by
  induction h with
  | done => exact ⟨List.prefix_refl _, fun _ => rfl⟩
  | refused hanswer hrest ih =>
      rw [questions_question, List.map_cons, List.cons_prefix_cons]
      exact ⟨⟨rfl, ih.1⟩, fun hwhole => by rw [ih.2 hwhole]⟩
  | failed hanswer =>
      rw [questions_question, List.map_cons, List.cons_prefix_cons]
      exact ⟨⟨rfl, List.nil_prefix⟩, nofun⟩
  | stopped hanswer htags hinside ih =>
      rw [questions_segment htags hinside.under, List.map_cons, List.cons_prefix_cons]
      exact ⟨⟨rfl, List.nil_prefix⟩, nofun⟩
  | admitted hanswer htags hinside hrest ihinside ihrest =>
      rw [questions_append, questions_segment htags hinside.under, List.map_cons,
        List.singleton_append, List.cons_prefix_cons]
      exact ⟨⟨rfl, ihrest.1⟩, fun hwhole => by rw [ihrest.2 hwhole]⟩

theorem eq_nil (h : Asks mask maxDepth node [] left log whole) : log = [] := by
  cases h
  rfl

-- What holds inside a visit holds of the whole visit, and of the place itself.
theorem thorough_visit (hplain : node.value.Plain) (htags : ∀ event ∈ tags, event.keys? = none)
    (h : Asks mask maxDepth node (node.opened maxDepth left) left inside whole)
    (hbelow : ∀ inner ∈ Value.nodesBelow node.way (node.opened maxDepth left),
      Thorough maxDepth left whole inside inner) :
    ∀ inner ∈ node.nodes,
      Thorough maxDepth left whole (.entered node.keys :: (inside ++ tags)) inner := by
  intro inner hinner
  rw [Node.nodes, Value.nodesAt_eq, List.mem_cons] at hinner
  rcases hinner with rfl | hinner
  · intro _
    have hbefore : (.entered node.keys :: (inside ++ tags)).takeWhile (· ≠ .entered node.keys) =
        [] := List.takeWhile_cons_of_neg (by simp)
    have hsame : questions node.keys (.entered node.keys :: (inside ++ tags)) =
        questions node.keys inside := by
      rw [questions_entered, questions_append, (silent_of_tags htags).1, List.append_nil]
    have hquestions := h.questions_eq
    rw [← hsame] at hquestions
    dsimp only
    rw [hbefore]
    exact hquestions
  · obtain ⟨name, -, hstart⟩ :=
      Value.exists_prefix_of_mem_nodesBelow hplain.children hinner
    have hne : node.keys ≠ inner.keys := ne_of_concat_prefix hstart
    have hsilent : Silent inner.keys [.entered node.keys] :=
      ⟨rfl, by simpa using hne.symm⟩
    have hinside : Thorough maxDepth left whole inside inner := by
      unfold Node.opened at h hbelow
      split at hbelow
      · rename_i hclosed
        rw [if_pos hclosed] at h
        rw [h.eq_nil]
        exact .of_notMem List.not_mem_nil
      · exact hbelow inner hinner
    exact .silent_append hsilent (hinside.append_silent (silent_of_tags htags) id)

section Silence

variable {rest : List (Text × Value)} {inner : Node} (h : Distinct node (entry :: rest))

include h

theorem silent_first (hinner : inner ∈ Value.nodesBelow node.way rest)
    (hlog : Under node.keys [entry.1] log) : Silent inner.keys log := by
  obtain ⟨name, hname, hstart⟩ := Value.exists_prefix_of_mem_nodesBelow h.tail.plain hinner
  refine hlog.silent hstart fun hmem => h.head_notMem ?_
  rwa [← List.mem_singleton.mp hmem]

variable (hinner : inner ∈ (node.child entry).nodes)

include hinner

theorem prefix_keys_of_mem_nodesAt : node.keys ++ [entry.1] <+: inner.keys := by
  rw [← Node.keys_child]
  exact (h.plain entry List.mem_cons_self).prefix_keys hinner

theorem silent_rest (hlog : Under node.keys (rest.map Prod.fst) log) : Silent inner.keys log :=
  hlog.silent (prefix_keys_of_mem_nodesAt h hinner) h.head_notMem

theorem silent_question : Silent inner.keys [node.question entry] := by
  have hne := ne_of_concat_prefix (prefix_keys_of_mem_nodesAt h hinner)
  constructor
  · simp [questions, Event.question?, Node.question, hne]
  · simp [Node.question]

end Silence

-- For a place below the first entry all that is recorded of the other ones is silent, and the
-- other way round.
theorem thorough (hentries : Distinct node entries)
    (h : Asks mask maxDepth node entries left log whole) :
    ∀ inner ∈ Value.nodesBelow node.way entries, Thorough maxDepth left whole log inner := by
  induction h with
  | done => exact fun _ hinner => absurd hinner List.not_mem_nil
  | failed hanswer => exact fun _ _ => .of_notMem (by simp [Node.question])
  | refused hanswer hrest ih =>
      intro inner hinner
      rcases List.mem_append.mp hinner with hinner | hinner
      · have hlog := silent_rest hentries hinner hrest.under
        exact .silent_append (silent_question hentries hinner) (.of_notMem hlog.2)
      · exact .silent_append (silent_first hentries hinner (.singleton rfl))
          (ih hentries.tail inner hinner)
  | stopped hanswer htags hinside ih =>
      intro inner hinner
      rcases List.mem_append.mp hinner with hinner | hinner
      · have hvisit := thorough_visit (hentries.plain _ List.mem_cons_self) htags hinside
          (ih (hentries.inside _ _)) inner hinner
        exact .silent_append (silent_question hentries hinner) hvisit
      · exact .of_notMem
          (silent_first hentries hinner (under_segment htags hinside.under)).2
  | admitted hanswer htags hinside hrest ihinside ihrest =>
      intro inner hinner
      rcases List.mem_append.mp hinner with hinner | hinner
      · have hvisit := thorough_visit (hentries.plain _ List.mem_cons_self) htags hinside
          (ihinside (hentries.inside _ _)) inner hinner
        exact (Thorough.silent_append (silent_question hentries hinner) hvisit).append_silent
          (silent_rest hentries hinner hrest.under) fun _ => rfl
      · exact .silent_append
          (silent_first hentries hinner (under_segment htags hinside.under))
          (ihrest hentries.tail inner hinner)

end Walk.Asks

-- A whole walk is a visit to the root, which it counts as moved to at the start.
theorem Walk.thorough_run {ε : Type} {v : Value} (hv : v.Plain)
    (hkeys : Node.KeyedOnce ⟨[], v⟩) (mask : Mask ε) (root : Text) (limits : Limits) :
    ∀ node ∈ v.nodes,
      Thorough limits.maxDepth (limits.maxTags - 1).toNat
        (run mask root limits v).fault.isNone (.entered [] :: (run mask root limits v).log)
        node := by
  obtain ⟨inside, tags, whole, htags, hasks, hlog, hfault⟩ := run_asks hv mask root limits
  rw [hlog, hfault]
  exact Asks.thorough_visit hv htags hasks (hasks.thorough (.opened hv hkeys _ _))

end SpanTags
