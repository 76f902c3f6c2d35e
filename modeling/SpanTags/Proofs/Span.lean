import SpanTags.Span
import Mathlib.Data.Finset.Card

namespace SpanTags.Span

variable {span : Span} {pairs : List (Text × Scalar)} {limit : Option Nat}

-- How many different names the pairs have.
def nameCount (pairs : List (Text × Scalar)) : Nat :=
  (pairs.map Prod.fst).toFinset.card

-- There is room for an attribute of each of the names.
def HasRoom (limit : Option Nat) (pairs : List (Text × Scalar)) : Prop :=
  ∀ most, limit = some most → nameCount pairs ≤ most

instance (limit : Option Nat) (pairs : List (Text × Scalar)) : Decidable (HasRoom limit pairs) :=
  match limit with
  | none => .isTrue nofun
  | some most => decidable_of_iff (nameCount pairs ≤ most)
      ⟨fun h _ heq => Option.some.inj heq ▸ h, fun h => h most rfl⟩

-- A name and a value that a span takes as they are.
def Settable (pair : Text × Scalar) : Prop :=
  pair.1 ≠ [] ∧ kept? pair.2 = some pair.2

section Count

theorem nameCount_mono {front : List (Text × Scalar)} (h : front ⊆ pairs) :
    nameCount front ≤ nameCount pairs := by
  apply Finset.card_le_card
  intro name hname
  rw [List.mem_toFinset] at hname ⊢
  exact List.map_subset _ h hname

theorem nameCount_le_length (pairs : List (Text × Scalar)) : nameCount pairs ≤ pairs.length := by
  have h := List.toFinset_card_le (pairs.map Prod.fst)
  rwa [List.length_map] at h

theorem nameCount_concat_of_notMem {pair : Text × Scalar} (h : pair.1 ∉ pairs.map Prod.fst) :
    nameCount (pairs ++ [pair]) = nameCount pairs + 1 := by
  have hnew : pair.1 ∉ (pairs.map Prod.fst).toFinset := by rwa [List.mem_toFinset]
  rw [nameCount, List.map_append, List.toFinset_append, Finset.union_comm]
  exact Finset.card_insert_of_notMem hnew

theorem HasRoom.of_subset {front : List (Text × Scalar)} (h : HasRoom limit pairs)
    (hfront : front ⊆ pairs) : HasRoom limit front :=
  fun most hmost => (nameCount_mono hfront).trans (h most hmost)

end Count

section Lookup

variable {κ ν : Type} [BEq κ] [LawfulBEq κ]

theorem isSome_lookup_iff (key : κ) (entries : List (κ × ν)) :
    (entries.lookup key).isSome = true ↔ key ∈ entries.map Prod.fst := by
  simp [List.lookup_isSome_iff]

variable [DecidableEq κ]

theorem lookup_cons_eq_ite (other : κ) (entry : κ × ν) (rest : List (κ × ν)) :
    (entry :: rest).lookup other = if other = entry.1 then some entry.2 else rest.lookup other := by
  obtain ⟨k, v⟩ := entry
  rw [List.lookup_cons]
  by_cases ho : other = k
  · simp [ho]
  · rw [beq_false_of_ne ho, if_neg ho]

theorem lookup_filter_ne (key other : κ) (entries : List (κ × ν)) :
    (entries.filter (·.1 ≠ key)).lookup other =
      if other = key then none else entries.lookup other := by
  induction entries with
  | nil => simp
  | cons entry rest ih =>
      rw [lookup_cons_eq_ite]
      by_cases hk : entry.1 = key
      · rw [List.filter_cons_of_neg (by simp [hk]), ih, hk]
        split <;> rfl
      · rw [List.filter_cons_of_pos (by simp [hk]), lookup_cons_eq_ite, ih]
        by_cases ho : other = entry.1
        · simp [ho, hk]
        · simp [ho]

theorem lookup_eq_some_of_mem {entries : List (κ × ν)} (h : (entries.map Prod.fst).Nodup)
    {entry : κ × ν} (hentry : entry ∈ entries) : entries.lookup entry.1 = some entry.2 := by
  induction entries with
  | nil => contradiction
  | cons first rest ih =>
      rw [List.map_cons, List.nodup_cons] at h
      rw [lookup_cons_eq_ite]
      rcases List.mem_cons.mp hentry with rfl | hentry
      · rw [if_pos rfl]
      · have hne : entry.1 ≠ first.1 := fun heq => h.1 (heq ▸ List.mem_map_of_mem hentry)
        rw [if_neg hne]
        exact ih h.2 hentry

end Lookup

section Latest

-- The value that the pairs give to the name last.
def latest? (name : Text) (pairs : List (Text × Scalar)) : Option Scalar :=
  pairs.reverse.lookup name

theorem isSome_latest?_iff (name : Text) (pairs : List (Text × Scalar)) :
    (latest? name pairs).isSome = true ↔ name ∈ pairs.map Prod.fst := by
  rw [latest?, isSome_lookup_iff, List.map_reverse, List.mem_reverse]

theorem latest?_append (name : Text) (front back : List (Text × Scalar)) :
    latest? name (front ++ back) = (latest? name back).or (latest? name front) := by
  rw [latest?, List.reverse_append, List.lookup_append]
  rfl

theorem latest?_singleton (name : Text) (pair : Text × Scalar) :
    latest? name [pair] = if name = pair.1 then some pair.2 else none := by
  rw [latest?, List.reverse_singleton, lookup_cons_eq_ite]
  rfl

theorem mem_of_latest? {name : Text} {value : Scalar} (h : latest? name pairs = some value) :
    (name, value) ∈ pairs := by
  obtain ⟨front, back, heq, -⟩ := List.lookup_eq_some_iff.mp h
  rw [← List.mem_reverse, heq]
  simp

theorem latest?_of_mem (h : (pairs.map Prod.fst).Nodup) {pair : Text × Scalar}
    (hpair : pair ∈ pairs) : latest? pair.1 pairs = some pair.2 := by
  apply lookup_eq_some_of_mem
  · rwa [List.map_reverse, List.nodup_reverse]
  · rwa [List.mem_reverse]

-- What is set later leaves a value as it is if it has no other for the name.
theorem latest?_append_of_agree {name : Text} {value : Scalar} {front back : List (Text × Scalar)}
    (hback : ∀ pair ∈ back, pair.1 = name → pair.2 = value)
    (hfront : latest? name front = some value) : latest? name (front ++ back) = some value := by
  rw [latest?_append, hfront]
  cases hlater : latest? name back with
  | none => rfl
  | some later => rw [← hback _ (mem_of_latest? hlater) rfl, Option.some_or]

end Latest

-- The span holds exactly the names that were set, each with the value that it was given last.
structure Holds (pairs : List (Text × Scalar)) (span : Span) : Prop where
  recording : span.isRecording = true
  nodup : (span.attributes.map Prod.fst).Nodup
  lookup : ∀ name, span.attributes.lookup name = latest? name pairs

namespace Holds

theorem mem_names_iff (h : Holds pairs span) (name : Text) :
    name ∈ span.attributes.map Prod.fst ↔ name ∈ pairs.map Prod.fst := by
  rw [← isSome_lookup_iff, h.lookup, isSome_latest?_iff]

theorem length_attributes (h : Holds pairs span) : span.attributes.length = nameCount pairs := by
  have hnames : (span.attributes.map Prod.fst).toFinset = (pairs.map Prod.fst).toFinset := by
    ext name
    rw [List.mem_toFinset, List.mem_toFinset, h.mem_names_iff]
  rw [nameCount, ← hnames, List.toFinset_card_of_nodup h.nodup, List.length_map]

-- No attribute is driven out: a new name finds the span below its limit.
theorem put_eq (h : Holds pairs span) {pair : Text × Scalar}
    (hroom : HasRoom limit (pairs ++ [pair])) (value : Scalar) :
    put limit pair.1 value span.attributes =
      span.attributes.filter (·.1 ≠ pair.1) ++ [(pair.1, value)] := by
  have hfull : ((span.attributes.filter (·.1 ≠ pair.1)).length = span.attributes.length &&
      limit = some span.attributes.length) = false := by
    rw [← Bool.not_eq_true, Bool.and_eq_true, decide_eq_true_eq, decide_eq_true_eq]
    rintro ⟨hnew, hlimit⟩
    have hname : pair.1 ∉ pairs.map Prod.fst := by
      intro hmem
      obtain ⟨entry, hentry, hname⟩ := List.mem_map.mp ((h.mem_names_iff pair.1).mpr hmem)
      have hkept := List.length_filter_eq_length_iff.mp hnew entry hentry
      simp [hname] at hkept
    have hcount := hroom _ hlimit
    rw [nameCount_concat_of_notMem hname, h.length_attributes] at hcount
    omega
  simp only [put, hfull, Bool.false_eq_true, if_false]

theorem set (h : Holds pairs span) {pair : Text × Scalar} (hpair : Settable pair)
    (hroom : HasRoom span.limit (pairs ++ [pair])) :
    Holds (pairs ++ [pair]) (span.set pair.1 pair.2) := by
  have hlimit : span.limit ≠ some 0 := by
    intro hzero
    have hcount := hroom 0 hzero
    have hone : nameCount [pair] ≤ nameCount (pairs ++ [pair]) := nameCount_mono (by simp)
    simp only [nameCount, List.map_cons, List.map_nil, List.toFinset_cons, List.toFinset_nil,
      insert_empty_eq, Finset.card_singleton] at hone hcount
    omega
  have hset : span.set pair.1 pair.2 =
      { span with attributes := put span.limit pair.1 pair.2 span.attributes } := by
    simp [Span.set, h.recording, hlimit, hpair.1, hpair.2]
  rw [hset, h.put_eq hroom]
  refine ⟨h.recording, ?_, fun name => ?_⟩
  · rw [List.map_append, List.nodup_append_comm, List.map_singleton, List.singleton_append,
      List.nodup_cons]
    refine ⟨?_, h.nodup.sublist (List.filter_sublist.map Prod.fst)⟩
    simp
  · rw [List.lookup_append, lookup_filter_ne, lookup_cons_eq_ite, latest?_append,
      latest?_singleton, h.lookup]
    by_cases hname : name = pair.1
    · simp [hname]
    · simp [hname]

end Holds

@[simp] theorem limit_set (name : Text) (value : Scalar) :
    (span.set name value).limit = span.limit := by
  unfold Span.set
  split
  · rfl
  · split <;> rfl

@[simp] theorem isRecording_set (name : Text) (value : Scalar) :
    (span.set name value).isRecording = span.isRecording := by
  unfold Span.set
  split
  · rfl
  · split <;> rfl

@[simp] theorem setAll_append (pairs more : List (Text × Scalar)) :
    span.setAll (pairs ++ more) = (span.setAll pairs).setAll more := by
  simp [setAll]

theorem setAll_singleton (pair : Text × Scalar) : span.setAll [pair] = span.set pair.1 pair.2 := rfl

@[simp] theorem limit_setAll (pairs : List (Text × Scalar)) :
    (span.setAll pairs).limit = span.limit := by
  induction pairs using List.reverseRecOn with
  | nil => rfl
  | append_singleton front pair ih => rw [setAll_append, setAll_singleton, limit_set, ih]

@[simp] theorem isRecording_setAll (pairs : List (Text × Scalar)) :
    (span.setAll pairs).isRecording = span.isRecording := by
  induction pairs using List.reverseRecOn with
  | nil => rfl
  | append_singleton front pair ih => rw [setAll_append, setAll_singleton, isRecording_set, ih]

theorem setAll_of_not_recording (h : span.isRecording = false) (pairs : List (Text × Scalar)) :
    span.setAll pairs = span := by
  induction pairs with
  | nil => rfl
  | cons pair rest ih =>
      have hset : span.setAll [pair] = span := by simp [setAll_singleton, Span.set, h]
      rw [← List.singleton_append, setAll_append, hset, ih]

-- While there is room nothing that was set is lost.
theorem holds_setAll_start (hpairs : ∀ pair ∈ pairs, Settable pair) (hroom : HasRoom limit pairs) :
    Holds pairs ((start limit).setAll pairs) := by
  induction pairs using List.reverseRecOn with
  | nil => exact ⟨rfl, List.nodup_nil, fun _ => rfl⟩
  | append_singleton front pair ih =>
      have hfront : front ⊆ front ++ [pair] := List.subset_append_left _ _
      have hheld := ih (fun other ho => hpairs other (hfront ho)) (hroom.of_subset hfront)
      rw [setAll_append, setAll_singleton]
      exact hheld.set (hpairs pair (by simp)) (by rwa [limit_setAll])

end SpanTags.Span
