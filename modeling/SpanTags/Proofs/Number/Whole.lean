import SpanTags.Number.Layout
import Mathlib.Data.List.Induction

namespace SpanTags

namespace Text

theorem digitValue_digitChar {d : Nat} (hd : d < 10) :
    (CodePoint.ofChar (Nat.digitChar d)).digitValue = d :=
  Nat.toNat_digitChar_sub_48_of_lt_ten hd

theorem ofNat_of_lt {n : Nat} (hn : n < 10) : ofNat n = [CodePoint.ofChar (Nat.digitChar n)] := by
  rw [ofNat, Nat.toDigits_of_lt_base hn]
  rfl

theorem ofNat_of_le {n : Nat} (hn : 10 ≤ n) :
    ofNat n = ofNat (n / 10) ++ [CodePoint.ofChar (Nat.digitChar (n % 10))] := by
  rw [ofNat, Nat.toDigits_of_base_le (by decide) hn, List.map_append]
  rfl

theorem decimal_concat (digits : Text) (c : CodePoint) :
    decimal (digits ++ [c]) = decimal digits * 10 + c.digitValue := by
  simp [decimal, numeral]

-- The digits of a number are read back as the number.
theorem decimal_ofNat (n : Nat) : decimal (ofNat n) = n := by
  induction n using Nat.strongRecOn with
  | ind n ih =>
      by_cases hn : n < 10
      · rw [ofNat_of_lt hn]
        simp [decimal, numeral, digitValue_digitChar hn]
      · rw [ofNat_of_le (by omega), decimal_concat, ih (n / 10) (by omega),
          digitValue_digitChar (Nat.mod_lt n (by decide))]
        omega

theorem ofNat_injective : Function.Injective ofNat :=
  Function.LeftInverse.injective decimal_ofNat

theorem forall_mem_toDigits {base : Nat} (hbase : 1 < base) {p : Char → Prop}
    (h : ∀ d < base, p (Nat.digitChar d)) (n : Nat) : ∀ c ∈ Nat.toDigits base n, p c := by
  induction n using Nat.strongRecOn with
  | ind n ih =>
      by_cases hn : n < base
      · rw [Nat.toDigits_of_lt_base hn]
        exact List.forall_mem_singleton.mpr (h n hn)
      · rw [Nat.toDigits_of_base_le hbase (by omega), List.forall_mem_append,
          List.forall_mem_singleton]
        exact ⟨ih _ (Nat.div_lt_self (by omega) hbase), h _ (Nat.mod_lt n (by omega))⟩

theorem decimal_lt {digits : Text} (h : ∀ c ∈ digits, c.isDigit = true) :
    decimal digits < 10 ^ digits.length := by
  induction digits using List.reverseRecOn with
  | nil => decide
  | append_singleton front c ih =>
      have hfront := ih fun d hd => h d (List.mem_append_left _ hd)
      have hc : c.digitValue < 10 := by
        have hdigit := h c (by simp)
        simp only [CodePoint.isDigit, CodePoint.within, Bool.and_eq_true,
          decide_eq_true_eq] at hdigit
        simp only [CodePoint.digitValue]
        omega
      rw [decimal_concat, List.length_append, List.length_singleton, Nat.pow_succ]
      omega

end Text

theorem natAbs_lt_of_readWhole {negative : Bool} {digits : Text} {n : Int}
    (hdigits : ∀ c ∈ digits, c.isDigit = true) (h : readWhole negative digits = .ok n) :
    n.natAbs < 10 ^ digitLimit := by
  unfold readWhole at h
  split at h
  · rename_i hlen
    have hn : n.natAbs = Text.decimal digits := by
      rw [← Except.ok.inj h]
      cases negative <;> simp
    rw [hn]
    exact Nat.lt_of_lt_of_le (Text.decimal_lt hdigits) (Nat.pow_le_pow_right (by decide) hlen)
  · contradiction

end SpanTags
