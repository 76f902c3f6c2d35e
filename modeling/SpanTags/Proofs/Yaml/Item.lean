import SpanTags.Proofs.Except
import SpanTags.Proofs.Ordered
import SpanTags.Yaml.Item

namespace SpanTags.Yaml

namespace Item

-- The entries of a table. What is no table has none.
def entries : Item → List (Item × Item)
  | .dict entries => entries
  | _ => []

-- A text is the same key as itself alone.
theorem text_beq_text (t u : Text) : (text t == text u) = (t == u) := by
  have hsame : (text t == text u) = (decide (Scalar.text t = .text u) && true) := rfl
  rw [hsame, Bool.and_true, Bool.eq_iff_iff, decide_eq_true_iff, Scalar.text.injEq, beq_iff_eq]

theorem entries_eq_nil_of_isNothing {item : Item} (h : item.isNothing = true) :
    item.entries = [] := by
  cases item with
  | dict entries => exact List.isEmpty_iff.mp h
  | _ => rfl

-- What a document can hold, if these are its anchors.
def Made (anchors : List (Text × Node)) (item : Item) : Prop :=
  item = .null ∨ ∃ node, item = Node.item anchors node

variable {anchors : List (Text × Node)} {item : Item}

theorem Made.of_mem_entryList {nodes : List (Node × Node)} {value : Item}
    (h : value ∈ (Node.entryList anchors nodes).map Prod.snd) : Made anchors value := by
  induction nodes with
  | nil => contradiction
  | cons node rest ih =>
      rw [Node.entryList, List.map_cons, List.mem_cons] at h
      rcases h with rfl | h
      · exact .inr ⟨node.2, rfl⟩
      · exact ih h

theorem entries_datum (tag : Tag) (text : Option Text) : (Node.datum tag text).entries = [] := by
  unfold Node.datum
  split <;> rfl

-- The tables of a document are made of pairs, one after the other.
theorem Made.entries_eq (h : Made anchors item) :
    ∃ pairs, item.entries = Ordered.ofPairs pairs ∧
      ∀ value ∈ pairs.map Prod.snd, Made anchors value := by
  have hnone : item.entries = [] → ∃ pairs, item.entries = Ordered.ofPairs pairs ∧
      ∀ value ∈ pairs.map Prod.snd, Made anchors value :=
    fun hnil => ⟨[], hnil, List.forall_mem_nil _⟩
  rcases h with rfl | ⟨node, rfl⟩
  · exact hnone rfl
  · match node with
    | .alias name => exact hnone rfl
    | .scalar tag t => exact hnone (entries_datum tag _)
    | .sequence tag items =>
        refine hnone ?_
        rw [Node.item]
        split <;> rfl
    | .mapping tag nodes =>
        rw [Node.item] at hnone ⊢
        split
        · exact ⟨_, rfl, fun value => Made.of_mem_entryList⟩
        · rename_i htag
          rw [if_neg htag] at hnone
          refine hnone ?_
          split
          · rfl
          · exact entries_datum tag _

theorem Made.ofPairs_entries (h : Made anchors item) :
    Ordered.ofPairs item.entries = item.entries := by
  obtain ⟨pairs, hentries, -⟩ := h.entries_eq
  rw [hentries, Ordered.ofPairs_ofPairs]

theorem Made.of_get? (h : Made anchors item) {key value : Item}
    (hget : Ordered.get? key item.entries = some value) : Made anchors value := by
  obtain ⟨pairs, hentries, hpairs⟩ := h.entries_eq
  rw [hentries] at hget
  have hvalue := Ordered.map_snd_putAll_subset pairs [] (Ordered.mem_map_snd_of_get? hget)
  exact hpairs value (by simpa using hvalue)

end Item

-- All that is found in a document is made of its nodes.
structure Content.Made (anchors : List (Text × Node)) (content : Content) : Prop where
  root : content.root.Made anchors
  anchored : ∀ name item, content.anchors.lookup name = some item → item.Made anchors

theorem Content.Made.resolve {anchors : List (Text × Node)} {content : Content} {item : Item}
    (h : content.Made anchors) (hitem : item.Made anchors) :
    (content.resolve item).Made anchors := by
  unfold Content.resolve
  split
  · rename_i name
    cases hfound : content.anchors.lookup name with
    | none => exact .inl rfl
    | some found => exact h.anchored name found hfound
  · exact hitem

theorem Content.exists_made {text : Text} {content : Content} (h : ofText text = .ok content) :
    ∃ anchors, content.Made anchors := by
  obtain ⟨document, -, h⟩ := exists_of_bind_eq_ok h
  refine ⟨document.anchors, ?_⟩
  unfold Document.content at h
  split at h
  · obtain rfl := Except.ok.inj h
    exact ⟨.inl rfl, nofun⟩
  · split at h
    · contradiction
    · obtain rfl := Except.ok.inj h
      refine ⟨.inr ⟨_, rfl⟩, fun name item hfound => ?_⟩
      obtain ⟨front, back, hanchors, -⟩ := List.lookup_eq_some_iff.mp hfound
      have hmem : (name, item) ∈ front ++ (name, item) :: back :=
        List.mem_append_right _ List.mem_cons_self
      rw [← hanchors] at hmem
      obtain ⟨anchor, -, hnode⟩ := List.mem_map.mp hmem
      exact .inr ⟨anchor.2, (congrArg Prod.snd hnode).symm⟩

end SpanTags.Yaml
