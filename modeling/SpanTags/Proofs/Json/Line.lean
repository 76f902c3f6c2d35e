import SpanTags.Json.Printer
import SpanTags.Proofs.Except
import SpanTags.Proofs.Number.Decimal
import SpanTags.Proofs.Text.Separated

namespace SpanTags

namespace Text

-- ASCII only, and no control character: such a text does not leave its line.
def IsVisible (t : Text) : Prop :=
  ∀ c ∈ t, c.within 0x20 0x7E = true

instance (t : Text) : Decidable t.IsVisible :=
  inferInstanceAs (Decidable (∀ c ∈ t, c.within 0x20 0x7E = true))

variable {t u : Text}

@[simp] theorem isVisible_cons_iff {c : CodePoint} :
    IsVisible (c :: t) ↔ c.within 0x20 0x7E = true ∧ t.IsVisible :=
  List.forall_mem_cons

@[simp] theorem isVisible_append_iff : IsVisible (t ++ u) ↔ t.IsVisible ∧ u.IsVisible :=
  List.forall_mem_append

theorem isVisible_flatMap {α : Type} {items : List α} {f : α → Text}
    (h : ∀ item ∈ items, (f item).IsVisible) : IsVisible (items.flatMap f) := by
  intro c hc
  obtain ⟨item, hitem, hc⟩ := List.mem_flatMap.mp hc
  exact h item hitem c hc

theorem isVisible_join {separator : Text} (hseparator : separator.IsVisible) {pieces : List Text}
    (h : ∀ piece ∈ pieces, piece.IsVisible) : (join separator pieces).IsVisible := by
  intro c hc
  obtain hc | ⟨piece, hpiece, hc⟩ := of_mem_intercalate hc
  · exact hseparator c hc
  · exact h piece hpiece c hc

theorem IsDecimal.isVisible (h : t.IsDecimal) : t.IsVisible := by
  have hmarks : ("+-.e" : Text).IsVisible := by decide
  intro c hc
  rcases h.isDigit_or_mem c hc with hdigit | hmark
  · simp only [CodePoint.isDigit, CodePoint.within, Bool.and_eq_true, decide_eq_true_eq]
      at hdigit ⊢
    omega
  · exact hmarks c hmark

theorem isVisible_ofHex (width n : Nat) : (ofHex width n).IsVisible := by
  have hdigit : ∀ d < 16, (CodePoint.ofChar (Nat.digitChar d)).within 0x20 0x7E = true := by
    decide
  refine isVisible_append_iff.mpr ⟨fun c hc => ?_, ?_⟩
  · obtain ⟨-, rfl⟩ := List.mem_replicate.mp hc
    rfl
  · exact List.forall_mem_map.mpr (forall_mem_toDigits (by decide) hdigit n)

end Text

namespace Json

theorem isVisible_writtenCodePoint (c : CodePoint) : (writtenCodePoint .line c).IsVisible := by
  have hunit : ∀ n, (unitEscape n).IsVisible := by
    intro n
    have hmark : ("\\u" : Text).IsVisible := by decide
    exact Text.isVisible_append_iff.mpr ⟨hmark, Text.isVisible_ofHex 4 n⟩
  unfold writtenCodePoint
  split_ifs with hmark hfeed hreturn htab hpage hback hnumber
  · rcases hmark with rfl | rfl <;> decide
  · decide
  · decide
  · decide
  · decide
  · decide
  · unfold numberEscape
    split_ifs
    · exact hunit _
    · exact Text.isVisible_append_iff.mpr ⟨hunit _, hunit _⟩
  · simp only [Style.line, not_or, not_and, true_implies, Nat.not_lt, Nat.not_le] at hnumber
    simp only [Text.IsVisible, List.forall_mem_singleton, CodePoint.within, Bool.and_eq_true,
      decide_eq_true_eq]
    omega

theorem isVisible_writeText (t : Text) : (writeText .line t).IsVisible := by
  have hquote : ("\"" : Text).IsVisible := by decide
  rw [writeText, Text.isVisible_cons_iff, Text.isVisible_append_iff]
  exact ⟨rfl, Text.isVisible_flatMap fun c _ => isVisible_writtenCodePoint c, hquote⟩

theorem isVisible_of_writeInt {n : Int} {t : Text} (h : writeInt n = .ok t) : t.IsVisible := by
  unfold writeInt at h
  cases hwritten : writeWhole n with
  | error fault =>
      rw [hwritten] at h
      contradiction
  | ok u =>
      rw [hwritten] at h
      obtain rfl := Except.ok.inj h
      unfold writeWhole at hwritten
      split at hwritten
      · obtain rfl := Except.ok.inj hwritten
        exact (Text.isDecimal_ofInt n).isVisible
      · contradiction

theorem isVisible_writeScalar {s : Scalar} {t : Text} (h : writeScalar .line s = .ok t) :
    t.IsVisible := by
  cases s with
  | null =>
      obtain rfl := Except.ok.inj h
      decide
  | bool b =>
      obtain rfl := Except.ok.inj h
      cases b <;> decide
  | int n =>
      rw [writeScalar] at h
      exact isVisible_of_writeInt h
  | float x =>
      cases x with
      | nan =>
          obtain rfl := Except.ok.inj h
          decide
      | infinite negative =>
          obtain rfl := Except.ok.inj h
          cases negative <;> decide
      | finite negative magnitude =>
          obtain rfl := Except.ok.inj h
          exact ((Double.isDecimal_text_iff _).mpr rfl).isVisible
  | text u =>
      obtain rfl := Except.ok.inj h
      exact isVisible_writeText u
  | bytes b =>
      obtain rfl := Except.ok.inj h
      exact isVisible_writeText _

theorem isVisible_enclosed {opening closing : Text} {written : List Text}
    (hopening : opening.IsVisible) (hclosing : closing.IsVisible)
    (h : ∀ piece ∈ written, piece.IsVisible) :
    (opening ++ Text.join Style.line.itemSeparator written ++ closing).IsVisible := by
  have hseparator : Style.line.itemSeparator.IsVisible := by decide
  rw [Text.isVisible_append_iff, Text.isVisible_append_iff]
  exact ⟨⟨hopening, Text.isVisible_join hseparator h⟩, hclosing⟩

mutual

-- Whatever a value holds, its document in this style is ASCII on a single line.
theorem isVisible_write {v : Value} {t : Text} (h : write .line v = .ok t) : t.IsVisible := by
  match v with
  | .scalar s => exact isVisible_writeScalar h
  | .list items =>
      obtain ⟨written, hwritten, h⟩ := exists_of_bind_eq_ok h
      obtain rfl := Except.ok.inj h
      exact isVisible_enclosed (by decide) (by decide) (isVisible_writeItems hwritten)
  | .tuple items =>
      obtain ⟨written, hwritten, h⟩ := exists_of_bind_eq_ok h
      obtain rfl := Except.ok.inj h
      exact isVisible_enclosed (by decide) (by decide) (isVisible_writeItems hwritten)
  | .dict entries =>
      obtain ⟨written, hwritten, h⟩ := exists_of_bind_eq_ok h
      obtain rfl := Except.ok.inj h
      exact isVisible_enclosed (by decide) (by decide) (isVisible_writeEntries hwritten)

theorem isVisible_writeItems {items : List Value} {written : List Text}
    (h : writeItems .line items = .ok written) : ∀ piece ∈ written, piece.IsVisible := by
  match items with
  | [] =>
      obtain rfl := Except.ok.inj h
      exact List.forall_mem_nil _
  | v :: rest =>
      obtain ⟨first, hfirst, h⟩ := exists_of_bind_eq_ok h
      obtain ⟨others, hothers, h⟩ := exists_of_bind_eq_ok h
      obtain rfl := Except.ok.inj h
      exact List.forall_mem_cons.mpr ⟨isVisible_write hfirst, isVisible_writeItems hothers⟩

theorem isVisible_writeEntries {entries : List (Key × Value)} {written : List Text}
    (h : writeEntries .line entries = .ok written) : ∀ piece ∈ written, piece.IsVisible := by
  match entries with
  | [] =>
      obtain rfl := Except.ok.inj h
      exact List.forall_mem_nil _
  | (key, v) :: rest =>
      obtain ⟨name, -, h⟩ := exists_of_bind_eq_ok h
      obtain ⟨first, hfirst, h⟩ := exists_of_bind_eq_ok h
      obtain ⟨others, hothers, h⟩ := exists_of_bind_eq_ok h
      obtain rfl := Except.ok.inj h
      refine List.forall_mem_cons.mpr ⟨?_, isVisible_writeEntries hothers⟩
      have hseparator : Style.line.nameSeparator.IsVisible := by decide
      exact Text.isVisible_append_iff.mpr
        ⟨Text.isVisible_append_iff.mpr ⟨isVisible_writeText name, hseparator⟩,
          isVisible_write hfirst⟩

end

end Json

end SpanTags
