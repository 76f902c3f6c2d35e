import SpanTags.Proofs.Ordered.Occurrence
import SpanTags.Proofs.Payload.Decoded
import SpanTags.Service.Params

namespace SpanTags

namespace Value

def text? : Value → Option Text
  | .scalar (.text t) => some t
  | _ => none

-- The texts that are given by a value: a text by itself, the others by the items of a list.
def texts : Value → List Text
  | .list items => items.filterMap text?
  | v => v.text?.toList

end Value

namespace Params

variable {params params' : Params}

-- The parameters that an object gives, entry by entry.
def ofObject (v : Value) : Params :=
  v.children.flatMap fun (name, value) => value.texts.map (name, ·)

section Values

variable {name value : Text} {values : List Text}

theorem valuesOf_cons (param : Text × Text) (params : Params) (name : Text) :
    valuesOf name (param :: params) =
      (if param.1 = name then [param.2] else []) ++ params.valuesOf name := by
  by_cases h : param.1 = name <;> simp [valuesOf, h]

theorem valuesOf_append (params params' : Params) (name : Text) :
    valuesOf name (params ++ params') = params.valuesOf name ++ params'.valuesOf name := by
  simp only [valuesOf, List.filter_append, List.map_append]

theorem length_valuesOf (params : Params) (name : Text) :
    (params.valuesOf name).length = (params.map Prod.fst).count name := by
  rw [valuesOf, List.length_map, List.count, List.countP_map, List.countP_eq_length_filter]
  congr 1
  exact List.filter_congr fun param _ => by simp [beq_eq_decide]

theorem mem_map_fst_iff : name ∈ params.map Prod.fst ↔ params.valuesOf name ≠ [] := by
  rw [← List.count_pos_iff, ← length_valuesOf, List.length_pos_iff]

theorem map_valuesOf (params : Params) (name : Text) :
    (params.valuesOf name).map (name, ·) = params.filter (·.1 = name) := by
  rw [valuesOf, List.map_map]
  refine (List.map_congr_left fun param hparam => ?_).trans (List.map_id _)
  obtain rfl := of_decide_eq_true (List.mem_filter.mp hparam).2
  rfl

theorem exists_append_of_valuesOf_eq_cons (h : params.valuesOf name = value :: values) :
    ∃ front back, params = front ++ (name, value) :: back ∧ ∀ other ∈ front, other.1 ≠ name := by
  obtain ⟨⟨name', value'⟩, rest, hfilter, rfl, -⟩ := List.map_eq_cons_iff.mp h
  obtain ⟨front, back, rfl, hfront, hname, -⟩ := List.filter_eq_cons_iff.mp hfilter
  obtain rfl := of_decide_eq_true hname
  exact ⟨front, back, rfl, fun other hother heq => hfront other hother (decide_eq_true heq)⟩

theorem texts_grouped (values : List Text) : (grouped values).texts = values := by
  have hlist : (Value.list (values.map Value.text)).texts = values := by
    rw [Value.texts, List.filterMap_map]
    exact List.filterMap_some
  match values with
  | [_] => rfl
  | [] | _ :: _ :: _ => exact hlist

theorem grouped_cases (h : values ≠ []) :
    (∃ value, values = [value] ∧ grouped values = .text value) ∨
      (1 < values.length ∧ grouped values = .list (values.map Value.text)) := by
  match values with
  | [] => contradiction
  | [value] => exact .inl ⟨value, rfl, rfl⟩
  | first :: second :: rest => exact .inr ⟨by simp, rfl⟩

end Values

-- Parameters of different names are woven together in another way. Those of one name stay in
-- their order.
inductive Interleaved : Params → Params → Prop
  | nil : Interleaved [] []
  | cons (param : Text × Text) {params params' : Params} (h : Interleaved params params') :
      Interleaved (param :: params) (param :: params')
  | swap (first second : Text × Text) (hnames : first.1 ≠ second.1) (rest : Params) :
      Interleaved (first :: second :: rest) (second :: first :: rest)
  | trans {params params' params'' : Params} (h : Interleaved params params')
      (h' : Interleaved params' params'') : Interleaved params params''

namespace Interleaved

theorem refl (params : Params) : params.Interleaved params := by
  induction params with
  | nil => exact .nil
  | cons param _ ih => exact .cons param ih

theorem perm (h : params.Interleaved params') : params.Perm params' := by
  induction h with
  | nil => exact .nil
  | cons param _ ih => exact .cons param ih
  | swap first second _ rest => exact .swap second first rest
  | trans _ _ ih ih' => exact ih.trans ih'

theorem valuesOf_eq (h : params.Interleaved params') (name : Text) :
    params.valuesOf name = params'.valuesOf name := by
  induction h with
  | nil => rfl
  | cons param _ ih => rw [valuesOf_cons, valuesOf_cons, ih]
  | swap first second hnames rest =>
      simp only [valuesOf_cons]
      -- at most one of the two has the name
      by_cases hfirst : first.1 = name
      · have hsecond : second.1 ≠ name := fun hsecond => hnames (hfirst.trans hsecond.symm)
        simp [hsecond]
      · simp [hfirst]
  | trans _ _ ih ih' => exact ih.trans ih'

-- A parameter moves to the front past those that have other names.
theorem cons_append {param : Text × Text} {front : Params}
    (h : ∀ other ∈ front, other.1 ≠ param.1) (back : Params) :
    Interleaved (param :: (front ++ back)) (front ++ param :: back) := by
  induction front with
  | nil => exact refl _
  | cons other rest ih =>
      obtain ⟨hother, hrest⟩ := List.forall_mem_cons.mp h
      have hswap := swap param other hother.symm (rest ++ back)
      exact hswap.trans ((ih hrest).cons other)

end Interleaved

-- The values of each name are all that the ways of weaving have in common.
theorem interleaved_iff :
    params.Interleaved params' ↔ ∀ name, params.valuesOf name = params'.valuesOf name := by
  refine ⟨Interleaved.valuesOf_eq, fun h => ?_⟩
  induction params generalizing params' with
  | nil =>
      cases params' with
      | nil => exact .nil
      | cons param rest =>
          have hnone := h param.1
          simp [valuesOf] at hnone
  | cons param rest ih =>
      have hvalues : params'.valuesOf param.1 = param.2 :: valuesOf param.1 rest := by
        rw [← h, valuesOf_cons, if_pos rfl, List.singleton_append]
      obtain ⟨front, back, rfl, hfront⟩ := exists_append_of_valuesOf_eq_cons hvalues
      have hmove := Interleaved.cons_append hfront back
      refine .trans (.cons param (ih fun name => ?_)) hmove
      have hname := (h name).trans (hmove.valuesOf_eq name).symm
      rw [valuesOf_cons, valuesOf_cons] at hname
      exact List.append_cancel_left hname

section Names

-- The first parameter of the one name stands before the first of the other. A name that no
-- parameter has comes after all that there are.
def Precedes (params : Params) (name other : Text) : Prop :=
  (params.map Prod.fst).idxOf name < (params.map Prod.fst).idxOf other

theorem mem_names_iff {name : Text} : name ∈ params.names ↔ params.valuesOf name ≠ [] := by
  rw [names, List.mem_eraseDups, mem_map_fst_iff]

theorem nodup_names (params : Params) : params.names.Nodup :=
  Ordered.nodup_eraseDups _

theorem pairwise_precedes_names (params : Params) : params.names.Pairwise params.Precedes :=
  Ordered.pairwise_idxOf_eraseDups _

theorem names_eq_iff (h : ∀ name, params.valuesOf name = params'.valuesOf name) :
    params.names = params'.names ↔
      ∀ name other, params.Precedes name other ↔ params'.Precedes name other := by
  rw [names, names, Ordered.eraseDups_eq_iff]
  exact and_iff_right fun name => by rw [mem_map_fst_iff, h, mem_map_fst_iff]

end Names

section Object

theorem valuesOf_map (key : Text) (values : List Text) (name : Text) :
    valuesOf name (values.map (key, ·)) = if key = name then values else [] := by
  induction values with
  | nil => simp [valuesOf]
  | cons value rest ih =>
      rw [List.map_cons, valuesOf_cons, ih]
      split <;> rfl

theorem valuesOf_flatMap {keys : List Text} (hkeys : keys.Nodup) (values : Text → List Text)
    (name : Text) :
    valuesOf name (keys.flatMap fun key => (values key).map (key, ·)) =
      if name ∈ keys then values name else [] := by
  induction keys with
  | nil => rfl
  | cons key rest ih =>
      obtain ⟨hkey, hrest⟩ := List.nodup_cons.mp hkeys
      rw [List.flatMap_cons, valuesOf_append, valuesOf_map, ih hrest]
      by_cases hname : key = name
      · subst hname
        simp [hkey]
      · simp [hname, Ne.symm hname]

theorem ofObject_object (params : Params) :
    ofObject params.object =
      params.names.flatMap fun name => (params.valuesOf name).map (name, ·) := by
  rw [ofObject, object, Value.children_object, List.flatMap_map]
  simp only [texts_grouped]

theorem valuesOf_ofObject_object (params : Params) (name : Text) :
    (ofObject params.object).valuesOf name = params.valuesOf name := by
  rw [ofObject_object, valuesOf_flatMap params.nodup_names]
  split
  · rfl
  · rename_i hname
    exact (not_not.mp (mt mem_names_iff.mpr hname)).symm

theorem interleaved_ofObject_object (params : Params) :
    (ofObject params.object).Interleaved params :=
  interleaved_iff.mpr (valuesOf_ofObject_object params)

theorem names_ofObject_object (params : Params) :
    (ofObject params.object).names = params.names := by
  have hgroups : (ofObject params.object).map Prod.fst = params.names.flatMap fun name =>
      List.replicate (params.valuesOf name).length name := by
    rw [ofObject_object, List.map_flatMap]
    simp only [List.map_map, Function.comp_def, List.map_const']
  have hsome : ∀ name ∈ params.names, (params.valuesOf name).length ≠ 0 :=
    fun name hname => mt List.length_eq_zero_iff.mp (mem_names_iff.mp hname)
  rw [names, hgroups]
  exact Ordered.eraseDups_flatMap_replicate params.nodup_names hsome

theorem object_congr (hnames : params.names = params'.names)
    (hvalues : ∀ name, params.valuesOf name = params'.valuesOf name) :
    params.object = params'.object := by
  simp only [object, hnames, hvalues]

theorem object_eq_object_iff :
    params.object = params'.object ↔ (∀ name, params.valuesOf name = params'.valuesOf name) ∧
      ∀ name other, params.Precedes name other ↔ params'.Precedes name other := by
  constructor
  · intro h
    have hvalues (name : Text) : params.valuesOf name = params'.valuesOf name := by
      rw [← valuesOf_ofObject_object, h, valuesOf_ofObject_object]
    have hnames : params.names = params'.names := by
      rw [← names_ofObject_object, h, names_ofObject_object]
    exact ⟨hvalues, (names_eq_iff hvalues).mp hnames⟩
  · rintro ⟨hvalues, horder⟩
    exact object_congr ((names_eq_iff hvalues).mpr horder) hvalues

-- The keys of the object are the names, in the order in which they come first. Each has its one
-- value, or else the list of all its values in their order. So no parameter is lost and none is
-- invented: the object gives them back, but for the way in which those of different names are
-- woven together, and what it gives back has the same object. Parameters have the same object
-- exactly if each name has the same values in the same order and the names come first in the
-- same order.
theorem object_groups (params : Params) :
    ∃ entries, params.object = .object entries ∧
      (∀ name, name ∈ entries.map Prod.fst ↔ name ∈ params.map Prod.fst) ∧
      (entries.map Prod.fst).Pairwise params.Precedes ∧
      (∀ entry ∈ entries, ∃ values,
        params.filter (·.1 = entry.1) = values.map (entry.1, ·) ∧
        ((∃ value, values = [value] ∧ entry.2 = .text value) ∨
          (1 < values.length ∧ entry.2 = .list (values.map Value.text)))) ∧
      (ofObject params.object).Perm params ∧
      (ofObject params.object).Interleaved params ∧
      (ofObject params.object).object = params.object ∧
      ∀ params' : Params, params.object = params'.object ↔
        (∀ name, params.valuesOf name = params'.valuesOf name) ∧
          ∀ name other, params.Precedes name other ↔ params'.Precedes name other := by
  have hkeys : (params.names.map fun name => (name, grouped (params.valuesOf name))).map Prod.fst =
      params.names := by
    rw [List.map_map]
    exact List.map_id _
  have hback := params.interleaved_ofObject_object
  refine ⟨_, rfl, ?_, ?_, ?_, hback.perm, hback, ?_, fun params' => object_eq_object_iff⟩
  · intro name
    rw [hkeys, names, List.mem_eraseDups]
  · rw [hkeys]
    exact params.pairwise_precedes_names
  · intro entry hentry
    obtain ⟨name, hname, rfl⟩ := List.mem_map.mp hentry
    exact ⟨params.valuesOf name, (params.map_valuesOf name).symm,
      grouped_cases (mem_names_iff.mp hname)⟩
  · exact object_congr (names_ofObject_object params) (valuesOf_ofObject_object params)

-- A name that comes again joins the values of its first.
example : object [("q", "a"), ("page", "2"), ("q", "b")] =
    .object [("q", .list [.text "a", .text "b"]), ("page", .text "2")] := rfl

end Object

end Params

end SpanTags
