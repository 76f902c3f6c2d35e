import SpanTags.Proofs.Rule.Parsing
import Mathlib.Data.List.Induction

namespace SpanTags

theorem CodePoint.ne_of_isBlank {b : CodePoint} (hb : b.isBlank = true) : b ≠ '\\' ∧ b ≠ ',' := by
  constructor <;>
    · rintro rfl
      exact absurd hb (by decide)

namespace Text

theorem strip_cons_of_isBlank {b : CodePoint} (hb : b.isBlank = true) (t : Text) :
    strip (b :: t) = t.strip := by
  simp [strip, trim, trimLeft, hb]

theorem strip_concat_of_isBlank {b : CodePoint} (hb : b.isBlank = true) (t : Text) :
    strip (t ++ [b]) = t.strip := by
  induction t with
  | nil => simp [strip, trim, trimLeft, trimRight, hb]
  | cons c rest ih =>
      by_cases hc : c.isBlank = true
      · rw [List.cons_append, strip_cons_of_isBlank hc, strip_cons_of_isBlank hc, ih]
      · simp [strip, trim, trimLeft, trimRight, hb, hc]

-- What takes no notice of a blank at either end takes none of all blanks around a text.
theorem apply_strip {α : Type} {f : Text → α}
    (hleft : ∀ b t, CodePoint.isBlank b = true → f (b :: t) = f t)
    (hright : ∀ b t, CodePoint.isBlank b = true → f (t ++ [b]) = f t) (t : Text) :
    f t.strip = f t := by
  have htrimLeft : ∀ t : Text, f (t.trimLeft CodePoint.isBlank) = f t := by
    intro t
    induction t with
    | nil => rfl
    | cons c rest ih =>
        by_cases hc : c.isBlank = true
        · rw [hleft c rest hc, ← ih]
          simp [trimLeft, hc]
        · simp [trimLeft, hc]
  have htrimRight : ∀ t : Text, f (t.trimRight CodePoint.isBlank) = f t := by
    intro t
    induction t using List.reverseRecOn with
    | nil => rfl
    | append_singleton front c ih =>
        by_cases hc : c.isBlank = true
        · rw [hright c front hc, ← ih]
          simp [trimRight, hc]
        · simp [trimRight, hc]
  rw [strip, trim, htrimRight, htrimLeft]

theorem strip_strip (t : Text) : t.strip.strip = t.strip :=
  apply_strip (fun _ t hb => strip_cons_of_isBlank hb t)
    (fun _ t hb => strip_concat_of_isBlank hb t) t

end Text

section Pieces

variable {b c : CodePoint} (t : Text)

theorem splitRules_ne_nil : splitRules t ≠ [] := by
  rw [splitRules, ne_eq, List.map_eq_nil_iff]
  exact List.splitOn_ne_nil _ _

theorem splitRules_pair :
    splitRules (('\\' : CodePoint) :: c :: t) =
      (splitRules t).modifyHead ([('\\' : CodePoint), c] ++ ·) := by
  obtain ⟨head, tail, hsplit⟩ :=
    List.exists_cons_of_ne_nil (List.splitOn_ne_nil (.plain ',') (Atom.ofText t))
  rw [splitRules, splitRules, Atom.ofText_backslash_cons, List.splitOn_cons_eq_if_modifyHead,
    hsplit]
  rfl

theorem splitRules_cons (hc : c ≠ '\\') :
    splitRules (c :: t) =
      if c = ',' then [] :: splitRules t else (splitRules t).modifyHead ([c] ++ ·) := by
  obtain ⟨head, tail, hsplit⟩ :=
    List.exists_cons_of_ne_nil (List.splitOn_ne_nil (.plain ',') (Atom.ofText t))
  rw [splitRules, splitRules, Atom.ofText_cons_of_ne hc, List.splitOn_cons_eq_if_modifyHead, hsplit]
  by_cases hcomma : c = ','
  · simp [hcomma]
  · simp [hcomma, Atom.source]

-- One more character at the end belongs to the last piece, unless it is a comma.
theorem exists_splitRules_concat (hb : b ≠ ',') :
    ∃ front last, splitRules t = front ++ [last] ∧
      splitRules (t ++ [b]) = front ++ [last ++ [b]] := by
  have hgrow : ∀ (start : Text) {pieces pieces' : List Text},
      (∃ front last, pieces = front ++ [last] ∧ pieces' = front ++ [last ++ [b]]) →
      ∃ front last, pieces.modifyHead (start ++ ·) = front ++ [last] ∧
        pieces'.modifyHead (start ++ ·) = front ++ [last ++ [b]] := by
    rintro start _ _ ⟨front, last, rfl, rfl⟩
    cases front with
    | nil => exact ⟨[], start ++ last, rfl, by simp⟩
    | cons first others => exact ⟨(start ++ first) :: others, last, rfl, rfl⟩
  induction t using Atom.textInduction with
  | nil =>
      refine ⟨[], [], rfl, ?_⟩
      by_cases hslash : b = '\\'
      · rw [hslash]
        rfl
      · rw [List.nil_append, splitRules_cons [] hslash, if_neg hb]
        rfl
  | backslash => exact ⟨[], ['\\'], rfl, splitRules_pair []⟩
  | pair c t ih =>
      rw [List.cons_append, List.cons_append, splitRules_pair, splitRules_pair]
      exact hgrow _ ih
  | char c t hc ih =>
      rw [List.cons_append, splitRules_cons _ hc, splitRules_cons _ hc]
      split
      · obtain ⟨front, last, hpieces, hpieces'⟩ := ih
        rw [hpieces, hpieces']
        exact ⟨[] :: front, last, rfl, rfl⟩
      · exact hgrow [c] ih

end Pieces

namespace RuleSet

variable {source piece piece' : Text} {set : RuleSet}

theorem readRule_congr (h : piece.strip = piece'.strip) :
    readRule source piece = readRule source piece' := by
  rw [readRule, readRule, h]

-- Blanks at either end of a source belong to its first and to its last piece, and not to the
-- rules there.
theorem mapM_readRule_strip (source t : Text) :
    (splitRules t.strip).mapM (readRule source) = (splitRules t).mapM (readRule source) := by
  refine Text.apply_strip (f := fun t => (splitRules t).mapM (readRule source)) ?_ ?_ t
  · intro b t hb
    obtain ⟨hslash, hcomma⟩ := CodePoint.ne_of_isBlank hb
    obtain ⟨head, tail, hpieces⟩ := List.exists_cons_of_ne_nil (splitRules_ne_nil t)
    have hhead : readRule source ([b] ++ head) = readRule source head :=
      readRule_congr (Text.strip_cons_of_isBlank hb head)
    simp only [splitRules_cons t hslash, hcomma, if_false, hpieces, List.modifyHead_cons,
      List.mapM_cons, hhead]
  · intro b t hb
    obtain ⟨-, hcomma⟩ := CodePoint.ne_of_isBlank hb
    obtain ⟨front, last, hpieces, hpieces'⟩ := exists_splitRules_concat t hcomma
    have hlast : readRule source (last ++ [b]) = readRule source last :=
      readRule_congr (Text.strip_concat_of_isBlank hb last)
    simp only [hpieces, hpieces', List.mapM_append, List.mapM_cons, List.mapM_nil, hlast]

theorem parse_strip_eq_ok_iff : parse source.strip = .ok set ↔ parse source = .ok set := by
  by_cases hblank : source.strip = []
  · rw [hblank, parse, parse, if_pos hblank]
    rfl
  · rw [parse_eq_ok_iff hblank, parse_eq_ok_iff (by rwa [Text.strip_strip]), mapM_readRule_strip]
    exact exists_congr fun pairs => and_congr_left fun _ => ⟨fun h => mapM_readRule_congr h source,
      fun h => mapM_readRule_congr h source.strip⟩

end RuleSet

end SpanTags
