import SpanTags.Proofs.Rule.Parsing
import SpanTags.Proofs.Rule.Rendering
import Mathlib.Algebra.Ring.Parity

namespace SpanTags

namespace Text

-- How many backslashes a text ends in.
def backslashes (t : Text) : Nat :=
  (t.reverse.takeWhile fun c : CodePoint => c = '\\').length

-- Backslashes take their partners from the left, so the last one is left alone if there is
-- an odd number of them.
def EndsUnpaired (t : Text) : Prop :=
  Odd t.backslashes

instance (t : Text) : Decidable t.EndsUnpaired :=
  inferInstanceAs (Decidable (Odd t.backslashes))

-- The character stands in the text without a backslash that would escape it.
def Shows (c : CodePoint) (t : Text) : Prop :=
  ∃ front rest, t = front ++ c :: rest ∧ ¬EndsUnpaired front

theorem backslashes_cons_of_ne {c : CodePoint} (hc : c ≠ '\\') (t : Text) :
    backslashes (c :: t) = t.backslashes := by
  rw [backslashes, List.reverse_cons, List.takeWhile_append]
  split
  · rename_i hall
    simp [hc, hall, backslashes]
  · rfl

theorem not_endsUnpaired_nil : ¬EndsUnpaired [] := by
  decide

theorem endsUnpaired_cons_iff {c : CodePoint} (hc : c ≠ '\\') (t : Text) :
    EndsUnpaired (c :: t) ↔ t.EndsUnpaired := by
  rw [EndsUnpaired, EndsUnpaired, backslashes_cons_of_ne hc]

-- A backslash and its partner do not count for what comes after them.
theorem endsUnpaired_pair_iff (c : CodePoint) (t : Text) :
    EndsUnpaired ('\\' :: c :: t) ↔ t.EndsUnpaired := by
  unfold EndsUnpaired backslashes
  rw [List.reverse_cons, List.reverse_cons, List.append_assoc, List.takeWhile_append]
  split
  · rename_i hall
    rw [hall, List.length_append]
    by_cases hc : c = '\\'
    · simp [hc, parity_simps]
    · simp [hc]
  · rfl

end Text

namespace Atom

variable {sep : CodePoint} {t : Text}

theorem dangling_mem_ofText_iff : .dangling ∈ ofText t ↔ t.EndsUnpaired := by
  induction t using textInduction with
  | nil => simp [ofText, Text.not_endsUnpaired_nil]
  | backslash =>
      rw [ofText_backslash]
      exact iff_of_true List.mem_cons_self (by decide)
  | pair c t ih => simpa [Text.endsUnpaired_pair_iff] using ih
  | char c t hc ih => simpa [ofText_cons_of_ne hc, Text.endsUnpaired_cons_iff hc] using ih

theorem plain_mem_ofText_iff (hsep : sep ≠ '\\') : .plain sep ∈ ofText t ↔ t.Shows sep := by
  constructor
  · intro h
    induction t using textInduction with
    | nil => simp [ofText] at h
    | backslash => simp at h
    | pair c t ih =>
        rw [ofText_backslash_cons] at h
        obtain ⟨front, rest, rfl, hfront⟩ := ih (List.mem_of_ne_of_mem (by simp) h)
        exact ⟨'\\' :: c :: front, rest, rfl, mt (Text.endsUnpaired_pair_iff c front).mp hfront⟩
    | char c t hc ih =>
        rw [ofText_cons_of_ne hc] at h
        rcases List.mem_cons.mp h with heq | h
        · cases heq
          exact ⟨[], t, rfl, Text.not_endsUnpaired_nil⟩
        · obtain ⟨front, rest, rfl, hfront⟩ := ih h
          exact ⟨c :: front, rest, rfl, mt (Text.endsUnpaired_cons_iff hc front).mp hfront⟩
  · rintro ⟨front, rest, rfl, hfront⟩
    rw [ofText_append (mt dangling_mem_ofText_iff.mp hfront), ofText_cons_of_ne hsep]
    exact List.mem_append_right _ List.mem_cons_self

-- Only the last unit can be a backslash without a partner.
theorem Written.dangling_notMem {front back : List Atom} (h : Written (front ++ back))
    (hback : back ≠ []) : .dangling ∉ front := by
  intro hmem
  obtain ⟨before, after, rfl⟩ := List.append_of_mem hmem
  rw [List.append_assoc] at h
  have hrest : after ++ back = [] := h.of_append.2
  exact hback (List.append_eq_nil_iff.mp hrest).2

theorem Written.dangling_notMem_of_mem_dropLast {pieces : List (List Atom)}
    (h : Written ([.plain sep].intercalate pieces)) :
    ∀ piece ∈ pieces.dropLast, .dangling ∉ piece := by
  induction pieces with
  | nil => simp
  | cons first rest ih =>
      cases rest with
      | nil => simp
      | cons next rest =>
          rw [List.intercalate_cons_cons, List.append_assoc] at h
          rw [List.dropLast_cons_cons]
          refine List.forall_mem_cons.mpr ⟨h.dangling_notMem (by simp), ih ?_⟩
          exact h.of_append.2.of_append.2

end Atom

section Split

variable {text piece : Text} {pieces : List Text}

theorem join_splitRules (text : Text) : Text.join "," (splitRules text) = text := by
  calc Text.join "," (splitRules text)
      = ([.plain ','].intercalate ((Atom.ofText text).splitOn (.plain ','))).flatMap Atom.source :=
        (Atom.flatMap_source_intercalate ',' _).symm
    _ = (Atom.ofText text).flatMap Atom.source := by rw [List.intercalate_splitOn]
    _ = text := Atom.flatMap_source_ofText text

theorem not_shows_of_mem_splitRules (hpiece : piece ∈ splitRules text) : ¬piece.Shows ',' := by
  obtain ⟨units, hunits, rfl⟩ := List.mem_map.mp hpiece
  have hwritten := Atom.written_of_mem_splitOn (Atom.written_ofText text) units hunits
  rw [← Atom.plain_mem_ofText_iff (by decide), Atom.ofText_flatMap_source hwritten]
  exact notMem_of_mem_splitOn units hunits

theorem not_endsUnpaired_of_mem_splitRules (hpiece : piece ∈ (splitRules text).dropLast) :
    ¬piece.EndsUnpaired := by
  rw [splitRules, ← List.map_dropLast] at hpiece
  obtain ⟨units, hunits, rfl⟩ := List.mem_map.mp hpiece
  have htext := Atom.written_ofText text
  have hwritten := Atom.written_of_mem_splitOn htext units (List.dropLast_subset _ hunits)
  have hjoin : [.plain ','].intercalate ((Atom.ofText text).splitOn (.plain ',')) =
      Atom.ofText text := List.intercalate_splitOn _
  rw [← hjoin] at htext
  rw [← Atom.dangling_mem_ofText_iff, Atom.ofText_flatMap_source hwritten]
  exact htext.dangling_notMem_of_mem_dropLast units hunits

theorem splitRules_of_not_shows (h : ¬piece.Shows ',') : splitRules piece = [piece] := by
  rw [← Atom.plain_mem_ofText_iff (by decide)] at h
  rw [splitRules, List.splitOn_eq_singleton h, List.map_singleton, Atom.flatMap_source_ofText]

-- Pieces that are joined come apart again if none of them shows a comma, and none but the
-- last would escape the comma after it.
theorem splitRules_join (hne : pieces ≠ []) (hapart : ∀ piece ∈ pieces, ¬piece.Shows ',')
    (hpaired : ∀ piece ∈ pieces.dropLast, ¬piece.EndsUnpaired) :
    splitRules (Text.join "," pieces) = pieces := by
  induction pieces with
  | nil => contradiction
  | cons first rest ih =>
      obtain ⟨hfirst, hrest⟩ := List.forall_mem_cons.mp hapart
      cases rest with
      | nil =>
          rw [Text.join, List.intercalate_singleton]
          exact splitRules_of_not_shows hfirst
      | cons next rest =>
          rw [List.dropLast_cons_cons] at hpaired
          obtain ⟨hpair, hothers⟩ := List.forall_mem_cons.mp hpaired
          rw [Text.join_cons_cons,
            RuleSet.splitRules_append_comma (mt Atom.dangling_mem_ofText_iff.mp hpair),
            splitRules_of_not_shows hfirst, ih (List.cons_ne_nil _ _) hrest hothers]
          rfl

-- The pieces of a text are those that make it up when joined by commas, so that each comma
-- that no backslash escapes stands between two of them.
theorem splitRules_eq_iff :
    splitRules text = pieces ↔
      pieces ≠ [] ∧ Text.join "," pieces = text ∧ (∀ piece ∈ pieces, ¬piece.Shows ',') ∧
        ∀ piece ∈ pieces.dropLast, ¬piece.EndsUnpaired := by
  constructor
  · rintro rfl
    have hne : splitRules text ≠ [] := fun h =>
      List.splitOn_ne_nil _ _ (List.map_eq_nil_iff.mp h)
    exact ⟨hne, join_splitRules text, fun _ => not_shows_of_mem_splitRules,
      fun _ => not_endsUnpaired_of_mem_splitRules⟩
  · rintro ⟨hne, rfl, hapart, hpaired⟩
    exact splitRules_join hne hapart hpaired

-- A backslash at the end of the text has no partner, and the one before a comma takes it.
example : splitRules "a\\,b,\\\\,\\" = ["a\\,b", "\\\\", "\\"] := by decide

end Split

end SpanTags
