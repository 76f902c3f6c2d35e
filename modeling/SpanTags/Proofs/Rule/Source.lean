import SpanTags.Proofs.Text.Separated
import SpanTags.Rule.Basic

namespace SpanTags

namespace Atom

-- The units that a text is read as: backslashes are never plain, and one without a
-- partner only comes last.
def Written : List Atom → Prop
  | [] => True
  | .plain c :: rest => c ≠ '\\' ∧ Written rest
  | .escaped _ :: rest => Written rest
  | .dangling :: rest => rest = []

theorem ofText_cons_of_ne {c : CodePoint} (hc : c ≠ '\\') (t : Text) :
    ofText (c :: t) = .plain c :: ofText t := by
  cases t <;> simp [ofText, hc]

@[simp] theorem ofText_backslash_cons (c : CodePoint) (t : Text) :
    ofText ('\\' :: c :: t) = .escaped c :: ofText t := by
  simp [ofText]

@[simp] theorem ofText_backslash : ofText ['\\'] = [.dangling] := by
  simp [ofText]

-- Every text is empty, a lone backslash, or begins with an escape pair or with a
-- character that stands for itself.
theorem textInduction {motive : Text → Prop} (nil : motive []) (backslash : motive ['\\'])
    (pair : ∀ (c : CodePoint) t, motive t → motive ('\\' :: c :: t))
    (char : ∀ (c : CodePoint) t, c ≠ '\\' → motive t → motive (c :: t)) (t : Text) :
    motive t := by
  induction t using ofText.induct with
  | case1 => exact nil
  | case2 c =>
      by_cases hc : c = '\\'
      · subst hc
        exact backslash
      · exact char c [] hc nil
  | case3 c rest ih => exact pair c rest ih
  | case4 c d rest hc ih => exact char c (d :: rest) hc ih

theorem written_ofText (t : Text) : Written (ofText t) := by
  induction t using textInduction with
  | nil => trivial
  | backslash => simp [Written]
  | pair c t ih => simpa [Written] using ih
  | char c t hc ih =>
      rw [ofText_cons_of_ne hc]
      exact ⟨hc, ih⟩

theorem ofText_flatMap_source {atoms : List Atom} (h : Written atoms) :
    ofText (atoms.flatMap source) = atoms := by
  induction atoms with
  | nil => rfl
  | cons atom rest ih =>
      cases atom with
      | plain c =>
          have hrest := ih h.2
          simp only [List.flatMap_cons, source, List.singleton_append]
          rw [ofText_cons_of_ne h.1, hrest]
      | escaped c =>
          have hrest := ih h
          simpa [source] using hrest
      | dangling =>
          cases (show rest = [] from h)
          rfl

theorem ofText_append {t : Text} (h : .dangling ∉ ofText t) (u : Text) :
    ofText (t ++ u) = ofText t ++ ofText u := by
  induction t using textInduction with
  | nil => rfl
  | backslash => simp at h
  | pair c t ih =>
      simp only [ofText_backslash_cons, List.mem_cons, reduceCtorEq, false_or] at h
      simp [ih h]
  | char c t hc ih =>
      rw [ofText_cons_of_ne hc, List.mem_cons] at h
      rw [List.cons_append, ofText_cons_of_ne hc, ofText_cons_of_ne hc, ih fun ht => h (.inr ht)]
      rfl

theorem getLast?_eq_of_dangling_mem {t : Text} (h : .dangling ∈ ofText t) :
    t.getLast? = some '\\' := by
  induction t using textInduction with
  | nil => simp [ofText] at h
  | backslash => rfl
  | pair c t ih =>
      have ht : .dangling ∈ ofText t := by simpa using h
      rw [List.getLast?_cons, List.getLast?_cons, ih ht]
      rfl
  | char c t hc ih =>
      rw [ofText_cons_of_ne hc] at h
      have ht : .dangling ∈ ofText t := by simpa using h
      rw [List.getLast?_cons, ih ht]
      rfl

theorem exists_mem_splitOn {sep atom : Atom} {atoms : List Atom} (h : atom ∈ atoms)
    (hne : atom ≠ sep) : ∃ piece ∈ atoms.splitOn sep, atom ∈ piece := by
  have hjoin : [sep].intercalate (atoms.splitOn sep) = atoms := List.intercalate_splitOn sep
  rw [← hjoin] at h
  exact (of_mem_intercalate h).resolve_left (mt List.mem_singleton.mp hne)

namespace Written

variable {front back units : List Atom}

theorem of_append (h : Written (front ++ back)) : Written front ∧ Written back := by
  induction front with
  | nil => exact ⟨trivial, h⟩
  | cons unit rest ih =>
      cases unit with
      | plain c =>
          obtain ⟨hc, hrest⟩ := h
          exact ⟨⟨hc, (ih hrest).1⟩, (ih hrest).2⟩
      | escaped c => exact ih h
      | dangling =>
          obtain ⟨rfl, rfl⟩ := List.append_eq_nil_iff.mp (show rest ++ back = [] from h)
          exact ⟨rfl, trivial⟩

theorem of_isInfix (h : Written units) (hpart : back <:+: units) : Written back := by
  obtain ⟨front, rest, rfl⟩ := hpart
  exact h.of_append.1.of_append.2

theorem backslash_notMem (h : Written units) : .plain '\\' ∉ units := by
  intro hmem
  obtain ⟨front, rest, rfl⟩ := List.append_of_mem hmem
  have hback : Written (.plain '\\' :: rest) := h.of_append.2
  exact hback.1 rfl

end Written

theorem written_of_mem_splitOn {sep : Atom} {atoms : List Atom} (h : Written atoms) :
    ∀ piece ∈ atoms.splitOn sep, Written piece := by
  intro piece hpiece
  have hpart : piece <:+: [sep].intercalate (atoms.splitOn sep) := infix_intercalate_of_mem hpiece
  rw [List.intercalate_splitOn] at hpart
  exact h.of_isInfix hpart

end Atom

end SpanTags
