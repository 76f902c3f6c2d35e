import SpanTags.Proofs.Number.Grid
import SpanTags.Proofs.Number.Whole
import Mathlib.Data.List.DropRight

namespace SpanTags

namespace Text

def IsDigits (t : Text) : Prop :=
  t ≠ [] ∧ ∀ c ∈ t, c.isDigit = true

def IsFraction (t : Text) : Prop :=
  t = [] ∨ ∃ digits : Text, digits.IsDigits ∧ t = "." ++ digits

def IsExponent (t : Text) : Prop :=
  t = [] ∨ ∃ sign digits : Text, (sign = "+" ∨ sign = "-") ∧ digits.IsDigits ∧
    t = "e" ++ sign ++ digits

def IsUnsigned (t : Text) : Prop :=
  ∃ whole fraction exponent : Text, whole.IsDigits ∧ fraction.IsFraction ∧ exponent.IsExponent ∧
    t = whole ++ fraction ++ exponent

-- The text of a finite decimal number: digits, with a minus sign before them or none, and
-- with a fraction and an exponent after them or none.
def IsDecimal (t : Text) : Prop :=
  t.IsUnsigned ∨ ∃ u : Text, u.IsUnsigned ∧ t = "-" ++ u

section Digits

theorem IsDigits.append {t u : Text} (ht : t.IsDigits) (hu : ∀ c ∈ u, c.isDigit = true) :
    (t ++ u).IsDigits :=
  ⟨fun h => ht.1 (List.append_eq_nil_iff.mp h).1, List.forall_mem_append.mpr ⟨ht.2, hu⟩⟩

theorem IsDigits.isUnsigned {t : Text} (h : t.IsDigits) : t.IsUnsigned :=
  ⟨t, [], [], h, .inl rfl, .inl rfl, by simp⟩

theorem isDigits_ofNat (n : Nat) : (ofNat n).IsDigits := by
  have hdigit : ∀ d < 10, (CodePoint.ofChar (Nat.digitChar d)).isDigit = true := by decide
  exact ⟨mt List.map_eq_nil_iff.mp Nat.toDigits_ne_nil,
    List.forall_mem_map.mpr (forall_mem_toDigits (by decide) hdigit n)⟩

theorem isDecimal_ofInt (n : Int) : (ofInt n).IsDecimal := by
  have hdigits := (isDigits_ofNat n.natAbs).isUnsigned
  unfold ofInt
  split
  · exact .inr ⟨_, hdigits, rfl⟩
  · exact .inl hdigits

theorem exists_mem_ofNat_ne_zero {n : Nat} (hn : 0 < n) : ∃ c ∈ ofNat n, c ≠ '0' := by
  by_contra hzero
  push Not at hzero
  have hdecimal : decimal (ofNat n) = 0 := by
    rw [List.eq_replicate_of_mem hzero]
    generalize (ofNat n).length = k
    induction k with
    | zero => rfl
    | succ k ih => rw [List.replicate_succ', decimal_concat, ih]; rfl
  rw [decimal_ofNat] at hdecimal
  omega

theorem trimRight_subset (drop : CodePoint → Bool) (t : Text) : t.trimRight drop ⊆ t :=
  (List.rdropWhile_prefix drop t).subset

theorem trimRight_ne_nil {drop : CodePoint → Bool} {t : Text} (h : ∃ c ∈ t, drop c = false) :
    t.trimRight drop ≠ [] := by
  obtain ⟨c, hc, hkept⟩ := h
  intro hnil
  have hall := List.rdropWhile_eq_nil_iff.mp hnil c hc
  rw [hkept] at hall
  contradiction

-- Nothing of a number is lost with its trailing zeros but the zeros.
theorem isDigits_trimRight_ofNat {n : Nat} (hn : 0 < n) :
    ((ofNat n).trimRight fun c => c = '0').IsDigits := by
  obtain ⟨c, hc, hne⟩ := exists_mem_ofNat_ne_zero hn
  refine ⟨trimRight_ne_nil ⟨c, hc, decide_eq_false hne⟩, fun d hd => ?_⟩
  exact (isDigits_ofNat n).2 d (trimRight_subset _ _ hd)

end Digits

section Letters

variable {t : Text}

theorem IsUnsigned.isDigit_or_mem (h : t.IsUnsigned) :
    ∀ c ∈ t, c.isDigit = true ∨ c ∈ ("+-.e" : Text) := by
  obtain ⟨whole, fraction, exponent, hwhole, hfraction, hexponent, rfl⟩ := h
  rw [List.forall_mem_append, List.forall_mem_append]
  refine ⟨⟨fun c hc => .inl (hwhole.2 c hc), ?_⟩, ?_⟩
  · rcases hfraction with rfl | ⟨digits, hdigits, rfl⟩
    · exact List.forall_mem_nil _
    · refine List.forall_mem_append.mpr ⟨by decide, fun c hc => .inl (hdigits.2 c hc)⟩
  · rcases hexponent with rfl | ⟨sign, digits, hsign, hdigits, rfl⟩
    · exact List.forall_mem_nil _
    · rw [List.forall_mem_append, List.forall_mem_append]
      refine ⟨⟨by decide, ?_⟩, fun c hc => .inl (hdigits.2 c hc)⟩
      rcases hsign with rfl | rfl <;> decide

-- No other letter is in a decimal number than that of the exponent.
theorem IsDecimal.isDigit_or_mem (h : t.IsDecimal) :
    ∀ c ∈ t, c.isDigit = true ∨ c ∈ ("+-.e" : Text) := by
  rcases h with h | ⟨u, h, rfl⟩
  · exact h.isDigit_or_mem
  · exact List.forall_mem_append.mpr ⟨by decide, h.isDigit_or_mem⟩

theorem not_isDecimal_of_mem (h : ('n' : CodePoint) ∈ t) : ¬ t.IsDecimal := by
  intro hdecimal
  exact absurd (hdecimal.isDigit_or_mem _ h) (by decide)

end Letters

end Text

namespace Layout

theorem isDigit_of_mem_zeros {n : Nat} : ∀ c ∈ zeros n, c.isDigit = true := by
  intro c hc
  rw [List.eq_of_mem_replicate hc]
  decide

variable {digits : Text}

theorem isUnsigned_positional (h : digits.IsDigits) (places : Int) :
    (positional digits places).IsUnsigned := by
  unfold positional
  dsimp only
  split
  · refine ⟨"0", "." ++ (zeros (-places).toNat ++ digits), [], ⟨by decide, by decide⟩,
      .inr ⟨_, ⟨?_, ?_⟩, rfl⟩, .inl rfl, ?_⟩
    · exact List.append_ne_nil_of_right_ne_nil _ h.1
    · exact List.forall_mem_append.mpr ⟨isDigit_of_mem_zeros, h.2⟩
    · simp
      rfl
  · rename_i hplaces
    have hbefore : Text.IsDigits (digits.take places.toNat) := by
      refine ⟨fun hnil => ?_, fun c hc => h.2 c (List.mem_of_mem_take hc)⟩
      rcases List.take_eq_nil_iff.mp hnil with hzero | hnone
      · omega
      · exact h.1 hnone
    have hafter : Text.IsDigits (if (digits.drop places.toNat).isEmpty then zeros 1
        else digits.drop places.toNat) := by
      split
      · exact ⟨by decide, isDigit_of_mem_zeros⟩
      · rename_i hfraction
        rw [List.isEmpty_iff] at hfraction
        exact ⟨hfraction, fun c hc => h.2 c (List.mem_of_mem_drop hc)⟩
    exact ⟨digits.take places.toNat ++ zeros (places.toNat - digits.length), _, [],
      hbefore.append isDigit_of_mem_zeros, .inr ⟨_, hafter, rfl⟩, .inl rfl, by simp⟩

theorem isUnsigned_scientific (layout : Layout) (h : digits.IsDigits) (places : Int) :
    (layout.scientific digits places).IsUnsigned := by
  have hfirst : Text.IsDigits (digits.take 1) :=
    ⟨fun hnil => h.1 (by simpa using hnil), fun c hc => h.2 c (List.mem_of_mem_take hc)⟩
  have hfraction : Text.IsFraction
      ((if (digits.drop 1).isEmpty then ("" : Text) else ".") ++ digits.drop 1) := by
    by_cases hnil : digits.drop 1 = []
    · rw [hnil]
      exact .inl rfl
    · rw [if_neg (by rwa [List.isEmpty_iff])]
      exact .inr ⟨_, ⟨hnil, fun c hc => h.2 c (List.mem_of_mem_drop hc)⟩, rfl⟩
  have hsign : (if places - 1 < 0 then ("-" : Text) else "+") = "+" ∨
      (if places - 1 < 0 then ("-" : Text) else "+") = "-" := by
    split
    · exact .inr rfl
    · exact .inl rfl
  have hsize : Text.IsDigits (zeros (layout.exponentWidth -
      (Text.ofNat (places - 1).natAbs).length) ++ Text.ofNat (places - 1).natAbs) := by
    obtain ⟨hne, hall⟩ := Text.isDigits_ofNat (places - 1).natAbs
    exact ⟨List.append_ne_nil_of_right_ne_nil _ hne,
      List.forall_mem_append.mpr ⟨isDigit_of_mem_zeros, hall⟩⟩
  refine ⟨_, _, _, hfirst, hfraction, .inr ⟨_, _, hsign, hsize, rfl⟩, ?_⟩
  simp only [scientific, List.append_assoc]

theorem isUnsigned_render (layout : Layout) {n : Nat} (hn : 0 < n) (place : Int) :
    (layout.render n place).IsUnsigned := by
  have hkept := Text.isDigits_trimRight_ofNat hn
  unfold render
  dsimp only
  split
  · exact isUnsigned_positional hkept _
  · exact isUnsigned_scientific layout hkept _

end Layout

namespace Double

theorem isUnsigned_magnitudeText {magnitude : Nat} (h : magnitude < 0x7FF0000000000000) :
    (magnitudeText magnitude).IsUnsigned := by
  unfold magnitudeText
  split
  · exact ⟨"0", ".0", [], ⟨by decide, by decide⟩, .inr ⟨"0", ⟨by decide, by decide⟩, rfl⟩, .inl rfl,
      rfl⟩
  · rename_i hzero
    exact Layout.isUnsigned_render _ (shortest_pos (Nat.pos_of_ne_zero hzero) h) _

theorem isDecimal_signed (negative : Bool) {t : Text} (h : t.IsUnsigned) :
    (signed negative t).IsDecimal := by
  cases negative with
  | false => exact .inl h
  | true => exact .inr ⟨t, h, rfl⟩

-- The finite doubles are those that are written as decimal numbers.
theorem isDecimal_text_iff (x : Double) : x.text.IsDecimal ↔ x.isFinite = true := by
  cases x with
  | nan => exact iff_of_false (Text.not_isDecimal_of_mem (by decide)) (by decide)
  | infinite negative =>
      refine iff_of_false (Text.not_isDecimal_of_mem ?_) Bool.false_ne_true
      cases negative <;> decide
  | finite negative magnitude =>
      have hmagnitude := isUnsigned_magnitudeText magnitude.isLt
      exact iff_of_true (isDecimal_signed negative hmagnitude) rfl

end Double

end SpanTags
