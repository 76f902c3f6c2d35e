import SpanTags.Proofs.Text.Separated
import SpanTags.Text.Quoted

namespace SpanTags

-- No character is half of a surrogate pair.
@[simp] theorem CodePoint.isSurrogate_ofChar (c : Char) : (ofChar c).isSurrogate = false := by
  have hvalid : c.toNat < 0xD800 ∨ 0xDFFF < c.toNat ∧ c.toNat < 0x110000 := c.valid
  show (decide (0xD800 ≤ c.toNat) && decide (c.toNat ≤ 0xDFFF)) = false
  rw [Bool.and_eq_false_iff, decide_eq_false_iff_not, decide_eq_false_iff_not]
  omega

namespace Text

-- A text that can be encoded: no half of a surrogate pair is in it.
def WellFormed (t : Text) : Prop :=
  ∀ c ∈ t, c.isSurrogate = false

instance (t : Text) : Decidable t.WellFormed :=
  inferInstanceAs (Decidable (∀ c ∈ t, c.isSurrogate = false))

@[simp] theorem wellFormed_nil : WellFormed [] :=
  List.forall_mem_nil _

@[simp] theorem wellFormed_cons_iff {c : CodePoint} {t : Text} :
    WellFormed (c :: t) ↔ c.isSurrogate = false ∧ t.WellFormed :=
  List.forall_mem_cons

@[simp] theorem wellFormed_append_iff {t u : Text} :
    WellFormed (t ++ u) ↔ t.WellFormed ∧ u.WellFormed :=
  List.forall_mem_append

@[simp] theorem wellFormed_flatMap_iff {α : Type} {items : List α} {f : α → Text} :
    WellFormed (items.flatMap f) ↔ ∀ item ∈ items, (f item).WellFormed := by
  simp only [WellFormed, List.mem_flatMap, forall_exists_index, and_imp]
  exact ⟨fun h item hitem c hc => h c item hitem hc, fun h c item hitem hc => h item hitem c hc⟩

theorem wellFormed_map_ofChar (chars : List Char) : WellFormed (chars.map CodePoint.ofChar) := by
  intro c hc
  obtain ⟨char, -, rfl⟩ := List.mem_map.mp hc
  exact CodePoint.isSurrogate_ofChar char

@[simp] theorem wellFormed_ofString (s : String) : (ofString s).WellFormed :=
  wellFormed_map_ofChar s.toList

@[simp] theorem wellFormed_ofHex (width n : Nat) : (ofHex width n).WellFormed := by
  refine wellFormed_append_iff.mpr ⟨fun c hc => ?_, wellFormed_map_ofChar _⟩
  obtain ⟨-, rfl⟩ := List.mem_replicate.mp hc
  exact CodePoint.isSurrogate_ofChar '0'

theorem wellFormed_join_iff {separator : Text} (hseparator : separator.WellFormed)
    {pieces : List Text} :
    (join separator pieces).WellFormed ↔ ∀ piece ∈ pieces, piece.WellFormed := by
  constructor
  · intro h piece hpiece c hc
    exact h c ((infix_intercalate_of_mem hpiece).subset hc)
  · intro h c hc
    obtain hc | ⟨piece, hpiece, hc⟩ := of_mem_intercalate hc
    · exact hseparator c hc
    · exact h piece hpiece c hc

section Quoted

theorem isPrintable_of_isSurrogate {c : CodePoint} (hc : c.isSurrogate = true) :
    c.isPrintable = false := by
  simp only [CodePoint.isSurrogate, CodePoint.within, Bool.and_eq_true, decide_eq_true_eq] at hc
  have hascii : c.isAscii = false := by
    simp only [CodePoint.isAscii, decide_eq_false_iff_not]
    omega
  have hrange : (0xD7FC, 0xF8FF) ∈ unprintableRanges := by decide
  rw [CodePoint.isPrintable, hascii]
  simp only [Bool.false_eq_true, if_false, Bool.not_eq_false', List.any_eq_true]
  refine ⟨_, hrange, ?_⟩
  simp only [CodePoint.within, Bool.and_eq_true, decide_eq_true_eq]
  omega

theorem wellFormed_quotedCodePoint {quote : CodePoint} (hquote : quote.isSurrogate = false)
    (c : CodePoint) : (quotedCodePoint quote c).WellFormed := by
  have hnumber : (numberEscape c).WellFormed := by
    unfold numberEscape
    split_ifs <;> simp
  have hescape : ∀ escape, shortEscape? quote c = some escape → escape.WellFormed := by
    intro escape h
    unfold shortEscape? at h
    split_ifs at h with hself
    · obtain rfl := Option.some.inj h
      rcases hself with rfl | rfl
      · simp [hquote]
      · simp
    all_goals
      obtain rfl := Option.some.inj h
      simp
  unfold quotedCodePoint
  split
  · exact hescape _ (by assumption)
  · split
    · rename_i hprintable
      rw [wellFormed_cons_iff]
      refine ⟨?_, wellFormed_nil⟩
      by_contra hc
      rw [Bool.not_eq_false] at hc
      rw [isPrintable_of_isSurrogate hc] at hprintable
      contradiction
    · exact hnumber

-- Whatever a text holds, its quoted form can be encoded: surrogates are written by number.
@[simp] theorem wellFormed_quoted (t : Text) : t.quoted.WellFormed := by
  have hquote : t.enclosingQuote.isSurrogate = false := by
    unfold enclosingQuote
    split <;> rfl
  simp only [quoted, wellFormed_cons_iff, wellFormed_append_iff, wellFormed_flatMap_iff,
    wellFormed_nil, and_true, hquote, true_and]
  exact fun c _ => wellFormed_quotedCodePoint hquote c

end Quoted

end Text

end SpanTags
