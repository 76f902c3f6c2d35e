import SpanTags.Payload.Display
import Mathlib.Data.List.Basic

namespace SpanTags

-- The scalars of a decoded payload whose texts can be formed: no bytes, and no whole
-- number of more digits than can be written.
def Scalar.IsPlain : Scalar → Prop
  | .int n => n.natAbs < 10 ^ digitLimit
  | .bytes _ => False
  | _ => True

instance : (s : Scalar) → Decidable s.IsPlain
  | .int n => inferInstanceAs (Decidable (n.natAbs < 10 ^ digitLimit))
  | .bytes _ => .isFalse id
  | .null | .bool _ | .float _ | .text _ => .isTrue trivial

-- The text that the entry of a key is found under; a key without a text counts as empty.
def Key.name (key : Key) : Text :=
  key.toText.toOption.getD []

namespace Value

-- Payloads of plain scalars, lists, tuples, and dictionaries whose keys are texts.
inductive Plain : Value → Prop
  | scalar {s : Scalar} (hs : s.IsPlain) : Plain (.scalar s)
  | list {items : List Value} (h : ∀ v ∈ items, Plain v) : Plain (.list items)
  | tuple {items : List Value} (h : ∀ v ∈ items, Plain v) : Plain (.tuple items)
  | object {entries : List (Text × Value)} (h : ∀ entry ∈ entries, Plain entry.2) :
      Plain (.object entries)

-- The items of a list under their places, the first of which is `place`.
def numbered (place : Nat) : List Value → List (Text × Value)
  | [] => []
  | v :: rest => (Text.ofNat place, v) :: numbered (place + 1) rest

-- The entries of a container under the keys that lead to them.
def children : Value → List (Text × Value)
  | .scalar _ => []
  | .list items => numbered 0 items
  | .tuple items => numbered 0 items
  | .dict entries => entries.map fun (key, v) => (key.name, v)

theorem mem_of_mem_numbered {place : Nat} {items : List Value} {child : Text × Value}
    (h : child ∈ numbered place items) : child.2 ∈ items := by
  induction items generalizing place with
  | nil => simp [numbered] at h
  | cons v rest ih =>
      rcases List.mem_cons.mp h with rfl | h
      · simp
      · exact List.mem_cons_of_mem _ (ih h)

@[simp] theorem children_object (entries : List (Text × Value)) :
    (object entries).children = entries := by
  simp only [object, children, List.map_map]
  exact List.map_id _

theorem Plain.children {v : Value} (hv : v.Plain) : ∀ child ∈ v.children, child.2.Plain := by
  intro child hchild
  cases hv with
  | scalar hs => contradiction
  | list h => exact h _ (mem_of_mem_numbered hchild)
  | tuple h => exact h _ (mem_of_mem_numbered hchild)
  | object h =>
      rw [children_object] at hchild
      exact h _ hchild

@[simp] theorem plain_scalar_iff {s : Scalar} : (scalar s).Plain ↔ s.IsPlain :=
  ⟨fun h => by cases h; assumption, .scalar⟩

@[simp] theorem plain_list_iff {items : List Value} :
    (list items).Plain ↔ ∀ v ∈ items, v.Plain :=
  ⟨fun h => by cases h; assumption, .list⟩

@[simp] theorem plain_tuple_iff {items : List Value} :
    (tuple items).Plain ↔ ∀ v ∈ items, v.Plain :=
  ⟨fun h => by cases h; assumption, .tuple⟩

@[simp] theorem plain_object_iff {entries : List (Text × Value)} :
    (object entries).Plain ↔ ∀ entry ∈ entries, entry.2.Plain :=
  ⟨fun h => by simpa using h.children, .object⟩

-- Induction along the entries: a container's case has the statement for all its children.
theorem Plain.induction {motive : Value → Prop}
    (scalar : ∀ s : Scalar, s.IsPlain → motive (.scalar s))
    (container : ∀ v : Value, v.Plain → v.isContainer = true →
      (∀ child ∈ v.children, motive child.2) → motive v)
    {v : Value} (hv : v.Plain) : motive v := by
  induction hv with
  | scalar hs => exact scalar _ hs
  | list h ih => exact container _ (.list h) rfl fun child hc => ih _ (mem_of_mem_numbered hc)
  | tuple h ih => exact container _ (.tuple h) rfl fun child hc => ih _ (mem_of_mem_numbered hc)
  | object h ih =>
      refine container _ (.object h) rfl fun child hc => ?_
      rw [children_object] at hc
      exact ih _ hc

end Value

-- A place within a payload: the entries on the way to it from the root, each with its
-- key, and the value there. The last entry on the way is the place itself.
structure Node where
  way : List (Text × Value)
  value : Value

def Node.keys (node : Node) : List Text :=
  node.way.map Prod.fst

namespace Value

mutual

-- The places at and below a value to which `way` leads, in depth-first order.
def nodesAt (way : List (Text × Value)) : Value → List Node
  | .scalar s => [⟨way, .scalar s⟩]
  | .list items => ⟨way, .list items⟩ :: nodesOfItems way 0 items
  | .tuple items => ⟨way, .tuple items⟩ :: nodesOfItems way 0 items
  | .dict entries => ⟨way, .dict entries⟩ :: nodesOfEntries way entries

def nodesOfItems (way : List (Text × Value)) (place : Nat) : List Value → List Node
  | [] => []
  | v :: rest =>
    nodesAt (way ++ [(Text.ofNat place, v)]) v ++ nodesOfItems way (place + 1) rest

def nodesOfEntries (way : List (Text × Value)) : List (Key × Value) → List Node
  | [] => []
  | (key, v) :: rest => nodesAt (way ++ [(key.name, v)]) v ++ nodesOfEntries way rest

end

def nodes (v : Value) : List Node :=
  nodesAt [] v

-- The places below the entries `children` of the container that `way` leads to.
def nodesBelow (way : List (Text × Value)) (children : List (Text × Value)) : List Node :=
  children.flatMap fun (key, v) => nodesAt (way ++ [(key, v)]) v

theorem nodesOfItems_eq (way : List (Text × Value)) (place : Nat) (items : List Value) :
    nodesOfItems way place items = nodesBelow way (numbered place items) := by
  induction items generalizing place with
  | nil => rfl
  | cons v rest ih => simp only [nodesOfItems, ih, nodesBelow, numbered, List.flatMap_cons]

theorem nodesOfEntries_eq (way : List (Text × Value)) (entries : List (Key × Value)) :
    nodesOfEntries way entries =
      nodesBelow way (entries.map fun (key, v) => (key.name, v)) := by
  induction entries with
  | nil => rfl
  | cons entry rest ih =>
      simp only [nodesOfEntries, ih, nodesBelow, List.map_cons, List.flatMap_cons]

theorem nodesAt_eq (way : List (Text × Value)) (v : Value) :
    nodesAt way v = ⟨way, v⟩ :: nodesBelow way v.children := by
  cases v with
  | scalar s => rfl
  | list items => simp only [nodesAt, nodesOfItems_eq, children]
  | tuple items => simp only [nodesAt, nodesOfItems_eq, children]
  | dict entries => simp only [nodesAt, nodesOfEntries_eq, children]

-- The way to a place ends with the place itself, and all before it are containers.
theorem Plain.way_eq_concat {v : Value} (hv : v.Plain) :
    ∀ (way : List (Text × Value)), ∀ node ∈ nodesAt way v, node = ⟨way, v⟩ ∨
      v.isContainer = true ∧ ∃ between key, node.way = way ++ between ++ [(key, node.value)] ∧
        ∀ entry ∈ between, entry.2.isContainer = true := by
  refine Plain.induction (motive := fun v => ∀ way, ∀ node ∈ nodesAt way v, node = ⟨way, v⟩ ∨
    v.isContainer = true ∧ ∃ between key, node.way = way ++ between ++ [(key, node.value)] ∧
      ∀ entry ∈ between, entry.2.isContainer = true) ?_ ?_ hv
  · intro s _ way node hn
    exact .inl (List.mem_singleton.mp hn)
  · intro v _ hc ih way node hn
    rw [nodesAt_eq, List.mem_cons] at hn
    rcases hn with rfl | hn
    · exact .inl rfl
    · refine .inr ⟨hc, ?_⟩
      obtain ⟨child, hchild, hn⟩ := List.mem_flatMap.mp hn
      rcases ih child hchild _ node hn with rfl | ⟨hcontainer, between, key, hway, hbetween⟩
      · exact ⟨[], child.1, by simp, by simp⟩
      · refine ⟨child :: between, key, by simp [hway], ?_⟩
        rw [List.forall_mem_cons]
        exact ⟨hcontainer, hbetween⟩

-- The way to a place begins with the way to every place above it.
theorem Plain.way_prefix {v : Value} (hv : v.Plain) (way : List (Text × Value)) (node : Node)
    (hn : node ∈ nodesAt way v) : way <+: node.way := by
  rcases hv.way_eq_concat way node hn with rfl | ⟨-, between, key, hway, -⟩
  · exact List.prefix_refl _
  · rw [hway, List.append_assoc]
    exact List.prefix_append _ _

-- What is passed on to the entries of a container reaches every place.
theorem Plain.forall_nodesAt {p : Value → Prop}
    (hp : ∀ v, p v → ∀ child ∈ v.children, p child.2) {v : Value} (hv : v.Plain) (h : p v) :
    ∀ (way : List (Text × Value)), ∀ node ∈ nodesAt way v, p node.value := by
  revert h
  refine Plain.induction (motive := fun v => p v → ∀ way, ∀ node ∈ nodesAt way v, p node.value)
    ?_ ?_ hv
  · intro s _ h way node hn
    rwa [List.mem_singleton.mp hn]
  · intro v _ _ ih h way node hn
    rw [nodesAt_eq, List.mem_cons] at hn
    rcases hn with rfl | hn
    · exact h
    · obtain ⟨child, hchild, hn⟩ := List.mem_flatMap.mp hn
      exact ih child hchild (hp v h child hchild) _ node hn

-- The first entry on the way to a place is one of the root's.
theorem Plain.mem_children_of_head?_way {v : Value} (hv : v.Plain) {node : Node}
    (hn : node ∈ v.nodes) {entry : Text × Value} (h : node.way.head? = some entry) :
    entry ∈ v.children := by
  rw [nodes, nodesAt_eq, List.mem_cons] at hn
  rcases hn with rfl | hn
  · contradiction
  · obtain ⟨child, hchild, hn⟩ := List.mem_flatMap.mp hn
    have hplain := hv.children child hchild
    obtain ⟨rest, hway⟩ := hplain.way_prefix _ node hn
    rw [← hway] at h
    obtain rfl : child = entry := Option.some.inj h
    exact hchild

end Value

end SpanTags
