import SpanTags.Json.Printer
import SpanTags.Proofs.Text.WellFormed

namespace SpanTags

namespace Json

theorem wellFormed_writtenCodePoint_compact_iff {c : CodePoint} :
    (writtenCodePoint .compact c).WellFormed ↔ c.isSurrogate = false := by
  have hnumber : (numberEscape c).WellFormed := by
    unfold numberEscape unitEscape
    split_ifs <;> simp
  unfold writtenCodePoint
  split_ifs with hmark hfeed hreturn htab hpage hback hcontrol
  · simp
  · simp [hfeed]
  · simp [hreturn]
  · simp [htab]
  · simp [hpage]
  · simp [hback]
  · have hlow : c.val < 0x20 := by simpa [Style.compact] using hcontrol
    have hplain : c.isSurrogate = false := by
      simp only [CodePoint.isSurrogate, CodePoint.within, Bool.and_eq_false_iff,
        decide_eq_false_iff_not]
      omega
    simp [hnumber, hplain]
  · simp

-- A text is written in its own alphabet, and so with the surrogates that it has.
theorem wellFormed_writeText_compact_iff {t : Text} :
    (writeText .compact t).WellFormed ↔ t.WellFormed := by
  simp only [writeText, Text.wellFormed_cons_iff, Text.wellFormed_append_iff,
    Text.wellFormed_flatMap_iff, Text.wellFormed_ofString, CodePoint.isSurrogate_ofChar, true_and,
    and_true, wellFormed_writtenCodePoint_compact_iff]
  rfl

@[simp] theorem nameOf_ofText (style : Style) (name : Text) :
    nameOf style (.ofText name) = .ok name :=
  rfl

theorem writeEntries_cons_ofText {style : Style} (name : Text) {v : Value} {t : Text}
    {rest : List (Key × Value)} {written : List Text} (hv : write style v = .ok t)
    (hrest : writeEntries style rest = .ok written) :
    writeEntries style ((.ofText name, v) :: rest) =
      .ok ((writeText style name ++ style.nameSeparator ++ t) :: written) := by
  simp only [writeEntries, nameOf_ofText, hv, hrest]
  rfl

-- A value whose document can be encoded exactly if something holds.
def Encodes (v : Value) (condition : Prop) : Prop :=
  ∃ t, write .compact v = .ok t ∧ (t.WellFormed ↔ condition)

theorem Encodes.congr {v : Value} {condition condition' : Prop} (h : Encodes v condition)
    (hiff : condition ↔ condition') : Encodes v condition' := by
  obtain ⟨t, ht, hwell⟩ := h
  exact ⟨t, ht, hwell.trans hiff⟩

theorem encodes_text (t : Text) : Encodes (.text t) t.WellFormed :=
  ⟨_, rfl, wellFormed_writeText_compact_iff⟩

theorem encodes_bool (b : Bool) : Encodes (.bool b) True := by
  refine ⟨writeBool b, rfl, ?_⟩
  cases b <;> simp [writeBool]

-- An object has a document that can be encoded if its names and its values can be.
theorem encodes_object {α : Type} {items : List α} (name : α → Text) {value : α → Value}
    {condition : α → Prop} (h : ∀ item ∈ items, Encodes (value item) (condition item)) :
    Encodes (.object (items.map fun item => (name item, value item)))
      (∀ item ∈ items, (name item).WellFormed ∧ condition item) := by
  have hwritten : ∃ written,
      writeEntries .compact (items.map fun item => (Key.ofText (name item), value item)) =
          .ok written ∧
        ((∀ piece ∈ written, piece.WellFormed) ↔
          ∀ item ∈ items, (name item).WellFormed ∧ condition item) := by
    induction items with
    | nil => exact ⟨[], rfl, by simp⟩
    | cons item rest ih =>
        rw [List.forall_mem_cons] at h
        obtain ⟨t, ht, hiff⟩ := h.1
        obtain ⟨written, hwritten, hpieces⟩ := ih h.2
        refine ⟨(writeText .compact (name item) ++ Style.compact.nameSeparator ++ t) :: written,
          ?_, ?_⟩
        · rw [List.map_cons]
          exact writeEntries_cons_ofText (name item) ht hwritten
        · have hseparator : Style.compact.nameSeparator.WellFormed := Text.wellFormed_ofString ":"
          simp only [List.forall_mem_cons, hpieces, Text.wellFormed_append_iff, hseparator, hiff,
            wellFormed_writeText_compact_iff, and_true]
  obtain ⟨written, hok, hpieces⟩ := hwritten
  refine ⟨"\x7b" ++ Text.join Style.compact.itemSeparator written ++ "\x7d", ?_, ?_⟩
  · have hentries : Value.object (items.map fun item => (name item, value item)) =
        .dict (items.map fun item => (Key.ofText (name item), value item)) :=
      congrArg Value.dict List.map_map
    rw [hentries, write, hok]
    rfl
  · have hseparator : Style.compact.itemSeparator.WellFormed := Text.wellFormed_ofString ","
    simp [Text.wellFormed_join_iff hseparator, hpieces]

theorem encodes_member {name : Text} (hname : name.WellFormed) {v : Value} {condition : Prop}
    (h : Encodes v condition) : Encodes (.object [(name, v)]) condition := by
  have hmember : ∀ item ∈ [()], Encodes v condition := fun _ _ => h
  have hobject : Encodes (.object [(name, v)]) (∀ item ∈ [()], name.WellFormed ∧ condition) :=
    encodes_object (fun _ => name) hmember
  apply hobject.congr
  rw [List.forall_mem_singleton]
  exact and_iff_right hname

end Json

end SpanTags
