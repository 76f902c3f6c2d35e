import SpanTags.Proofs.Number.Decimal
import Mathlib.Algebra.Order.Field.Power
import Mathlib.Tactic.FieldSimp
import Mathlib.Tactic.Positivity

namespace SpanTags.Double

-- Half of a unit past the largest double. From here on the nearest double is none.
def overflow : Nat :=
  (2 ^ 54 - 1) * 2 ^ 970

section Rounding

variable {num den : Nat}

theorem div_le_roundDiv (num den : Nat) : num / den ≤ roundDiv num den := by
  unfold roundDiv
  dsimp only
  split_ifs <;> omega

theorem roundDiv_le (num den : Nat) : roundDiv num den ≤ num / den + 1 := by
  unfold roundDiv
  dsimp only
  split_ifs <;> omega

-- A half is rounded to the even neighbour, here the upper one.
theorem le_roundDiv_iff {t : Nat} (hden : 0 < den) (heven : t % 2 = 0) (ht : 0 < t) :
    t ≤ roundDiv num den ↔ (2 * t - 1) * den ≤ 2 * num := by
  have hsplit := Nat.div_add_mod num den
  have hrest := Nat.mod_lt num hden
  unfold roundDiv
  dsimp only
  generalize num / den = q at *
  generalize num % den = r at *
  have hdouble : 2 * num = 2 * q * den + 2 * r := by
    rw [← hsplit]
    ring
  rw [hdouble]
  rcases Nat.lt_trichotomy t (q + 1) with hless | rfl | hmore
  · have hquotient : (2 * t - 1) * den ≤ 2 * q * den := Nat.mul_le_mul_right den (by omega)
    refine iff_of_true ?_ (hquotient.trans (Nat.le_add_right _ _))
    split_ifs <;> omega
  · have hhalf : (2 * (q + 1) - 1) * den = 2 * q * den + den := by
      rw [show 2 * (q + 1) - 1 = 2 * q + 1 by omega, Nat.add_mul, Nat.one_mul]
    rw [hhalf]
    split_ifs <;> omega
  · have hquotient : (2 * q + 2) * den ≤ (2 * t - 1) * den := Nat.mul_le_mul_right den (by omega)
    rw [Nat.add_mul] at hquotient
    refine iff_of_false ?_ (by omega)
    split_ifs <;> omega

theorem wholeUnits_lt_iff {power : Int} {k : Nat} (hden : 0 < den) :
    wholeUnits num den power < k ↔ (num : ℚ) < k * (den * 2 ^ power) := by
  unfold wholeUnits
  split
  · rename_i hpower
    obtain ⟨n, rfl⟩ : ∃ n : Nat, power = -(n : Int) := ⟨(-power).toNat, by omega⟩
    rw [Int.neg_neg, Int.toNat_natCast, Nat.div_lt_iff_lt_mul hden, zpow_neg, zpow_natCast,
      ← mul_assoc, ← div_eq_mul_inv, lt_div_iff₀ (by positivity)]
    exact_mod_cast Iff.rfl
  · rename_i hpower
    obtain ⟨n, rfl⟩ : ∃ n : Nat, power = (n : Int) := ⟨power.toNat, by omega⟩
    rw [Int.toNat_natCast, Nat.div_lt_iff_lt_mul (by positivity), zpow_natCast]
    exact_mod_cast Iff.rfl

theorem le_roundUnits_iff {power : Int} {t : Nat} (hden : 0 < den) (heven : t % 2 = 0)
    (ht : 0 < t) : t ≤ roundUnits num den power ↔
      ((2 * t - 1 : Nat) : ℚ) * (den * 2 ^ power) ≤ 2 * num := by
  unfold roundUnits
  split
  · rename_i hpower
    obtain ⟨n, rfl⟩ : ∃ n : Nat, power = -(n : Int) := ⟨(-power).toNat, by omega⟩
    rw [Int.neg_neg, Int.toNat_natCast, le_roundDiv_iff hden heven ht, zpow_neg, zpow_natCast,
      ← div_eq_mul_inv, ← mul_div_assoc, div_le_iff₀ (by positivity), mul_assoc 2]
    exact_mod_cast Iff.rfl
  · rename_i hpower
    obtain ⟨n, rfl⟩ : ∃ n : Nat, power = (n : Int) := ⟨power.toNat, by omega⟩
    rw [Int.toNat_natCast, le_roundDiv_iff (by positivity) heven ht, zpow_natCast]
    exact_mod_cast Iff.rfl

theorem wholeUnits_le_roundUnits (num den : Nat) (power : Int) :
    wholeUnits num den power ≤ roundUnits num den power := by
  unfold wholeUnits roundUnits
  split <;> exact div_le_roundDiv _ _

theorem roundUnits_le (num den : Nat) (power : Int) :
    roundUnits num den power ≤ wholeUnits num den power + 1 := by
  unfold wholeUnits roundUnits
  split <;> exact roundDiv_le _ _

end Rounding

section Power

variable {num den : Nat}

-- The logarithms fix the ratio up to a factor of four.
theorem log2_bounds (hnum : 0 < num) (hden : 0 < den) :
    2 ^ ((num.log2 : Int) - den.log2 - 1) * (den : ℚ) ≤ num ∧
      (num : ℚ) < 2 ^ ((num.log2 : Int) - den.log2 + 1) * den := by
  have hnumLow : (2 : ℚ) ^ (num.log2 : Int) ≤ num := by
    exact_mod_cast Nat.log2_self_le (Nat.ne_of_gt hnum)
  have hnumHigh : (num : ℚ) < 2 ^ ((num.log2 : Int) + 1) := by
    exact_mod_cast Nat.lt_log2_self (n := num)
  have hdenLow : (2 : ℚ) ^ (den.log2 : Int) ≤ den := by
    exact_mod_cast Nat.log2_self_le (Nat.ne_of_gt hden)
  have hdenHigh : (den : ℚ) < 2 ^ ((den.log2 : Int) + 1) := by
    exact_mod_cast Nat.lt_log2_self (n := den)
  constructor
  · calc
      _ ≤ (2 : ℚ) ^ ((num.log2 : Int) - den.log2 - 1) * 2 ^ ((den.log2 : Int) + 1) := by gcongr
      _ = 2 ^ (num.log2 : Int) := by
        rw [← zpow_add₀ two_ne_zero]
        congr 1
        omega
      _ ≤ num := hnumLow
  · calc
      (num : ℚ) < 2 ^ ((num.log2 : Int) + 1) := hnumHigh
      _ = 2 ^ ((num.log2 : Int) - den.log2 + 1) * 2 ^ (den.log2 : Int) := by
        rw [← zpow_add₀ two_ne_zero]
        congr 1
        omega
      _ ≤ _ := by gcongr

-- The last bit is chosen so that there are 53 of them, unless that is too fine.
theorem lastPower_bounds (hnum : 0 < num) (hden : 0 < den) :
    wholeUnits num den (lastPower num den) < 2 ^ 53 ∧
      (-1074 < lastPower num den → 2 ^ 52 ≤ wholeUnits num den (lastPower num den)) := by
  obtain ⟨hlow, hhigh⟩ := log2_bounds hnum hden
  unfold lastPower
  dsimp only
  generalize hguess : (num.log2 : Int) - den.log2 - 53 = guess
  rw [show (num.log2 : Int) - den.log2 - 1 = guess + 52 by omega, zpow_add₀ two_ne_zero] at hlow
  rw [show (num.log2 : Int) - den.log2 + 1 = guess + 54 by omega, zpow_add₀ two_ne_zero] at hhigh
  have hchosen : ∃ power, (if wholeUnits num den guess < 2 ^ 53 then guess else guess + 1) = power ∧
      wholeUnits num den power < 2 ^ 53 ∧ 2 ^ 52 ≤ wholeUnits num den power := by
    by_cases hfits : wholeUnits num den guess < 2 ^ 53
    · refine ⟨guess, if_pos hfits, hfits, ?_⟩
      rw [← Nat.not_lt, wholeUnits_lt_iff hden, not_lt]
      push_cast
      linarith
    · refine ⟨guess + 1, if_neg hfits, ?_, ?_⟩
      · rw [wholeUnits_lt_iff hden, zpow_add_one₀ two_ne_zero]
        push_cast
        linarith
      · rw [wholeUnits_lt_iff hden, not_lt] at hfits
        rw [← Nat.not_lt, wholeUnits_lt_iff hden, not_lt, zpow_add_one₀ two_ne_zero]
        push_cast at hfits ⊢
        linarith
  obtain ⟨power, hpower, hless, hmost⟩ := hchosen
  rw [hpower]
  rcases le_total (-1074) power with hnormal | hsmall
  · rw [max_eq_left hnormal]
    exact ⟨hless, fun _ => hmost⟩
  · rw [max_eq_right hsmall]
    refine ⟨?_, fun h => absurd h (lt_irrefl _)⟩
    rw [wholeUnits_lt_iff hden] at hless ⊢
    refine hless.trans_le ?_
    gcongr
    exact one_le_two

end Power

section Infinite

variable {negative sign : Bool} {num den : Nat}

theorem ofMagnitude_eq_infinite_iff {magnitude : Nat} :
    ofMagnitude negative magnitude = .infinite sign ↔
      sign = negative ∧ 0x7FF0000000000000 ≤ magnitude := by
  unfold ofMagnitude
  split
  · rename_i h
    exact iff_of_false nofun fun ⟨_, hle⟩ => absurd h (Nat.not_lt.mpr hle)
  · rename_i h
    rw [infinite.injEq]
    exact ⟨fun hsign => ⟨hsign.symm, Nat.not_lt.mp h⟩, fun ⟨hsign, _⟩ => hsign.symm⟩

theorem overflow_le_iff {top : Int} (htop : top = 970) :
    overflow * den ≤ num ↔ (2 ^ 54 - 1 : Nat) * ((den : ℚ) * 2 ^ top) ≤ num := by
  obtain ⟨n, hn⟩ : ∃ n : Nat, 970 = n := ⟨970, rfl⟩
  obtain rfl : top = n := by omega
  rw [overflow, hn, Nat.mul_assoc, Nat.mul_comm _ den, zpow_natCast]
  exact_mod_cast Iff.rfl

-- The upper limit of the exponents is met by the last unit, or by the carry into the next.
theorem le_magnitude_iff (hnum : 0 < num) (hden : 0 < den) :
    0x7FF0000000000000 ≤ (lastPower num den + 1074).toNat * 2 ^ 52 +
        roundUnits num den (lastPower num den) ↔ overflow * den ≤ num := by
  obtain ⟨hless, hmost⟩ := lastPower_bounds hnum hden
  have hround := wholeUnits_le_roundUnits num den (lastPower num den)
  have hup := roundUnits_le num den (lastPower num den)
  generalize lastPower num den = power at *
  obtain ⟨top, htop⟩ : ∃ top : Int, top = 970 := ⟨970, rfl⟩
  have hunit : (0 : ℚ) < den * 2 ^ top := by positivity
  rw [overflow_le_iff htop]
  rcases lt_trichotomy power (top + 1) with hsmall | rfl | hlarge
  · refine iff_of_false (by omega) (not_le.mpr ?_)
    have hpower : (den : ℚ) * 2 ^ power ≤ den * 2 ^ top := by
      gcongr
      · exact one_le_two
      · omega
    rw [wholeUnits_lt_iff hden] at hless
    push_cast at hless ⊢
    linarith
  · have hcarry : 2 ^ 53 ≤ roundUnits num den (top + 1) ↔ _ :=
      le_roundUnits_iff hden (by decide) (by decide)
    rw [zpow_add_one₀ two_ne_zero] at hcarry
    have hreached : 0x7FF0000000000000 ≤ (top + 1 + 1074).toNat * 2 ^ 52 +
        roundUnits num den (top + 1) ↔ 2 ^ 53 ≤ roundUnits num den (top + 1) := by omega
    rw [hreached, hcarry]
    push_cast
    constructor <;> intro h <;> linarith
  · have hmost := hmost (by omega)
    refine iff_of_true (by omega) ?_
    have hpower : (den : ℚ) * (2 ^ top * 2 ^ (2 : Int)) ≤ den * 2 ^ power := by
      rw [← zpow_add₀ two_ne_zero]
      gcongr
      · exact one_le_two
      · omega
    rw [← Nat.not_lt, wholeUnits_lt_iff hden, not_lt] at hmost
    push_cast at hmost ⊢
    linarith

theorem ofRatio_eq_infinite_iff (hden : 0 < den) :
    ofRatio negative num den = .infinite sign ↔ sign = negative ∧ overflow * den ≤ num := by
  unfold ofRatio
  split
  · rename_i hzero
    have hoverflow : 0 < overflow := by decide +kernel
    have hpos := Nat.mul_pos hoverflow hden
    exact iff_of_false nofun fun ⟨_, hle⟩ => by omega
  · rename_i hnum
    dsimp only
    rw [ofMagnitude_eq_infinite_iff, le_magnitude_iff (Nat.pos_of_ne_zero hnum) hden]

theorem lt_pow_length_toDigits (n : Nat) : n < 10 ^ (Nat.toDigits 10 n).length := by
  have hread := Text.decimal_lt (Text.isDigits_ofNat n).2
  rwa [Text.decimal_ofNat, Text.ofNat, List.length_map] at hread

-- A decimal number is beyond the doubles exactly if it lies at least half of a unit past the
-- largest of them.
theorem ofDecimal_eq_infinite_iff {digits : Nat} {power : Int} :
    ofDecimal negative digits power = .infinite sign ↔
      sign = negative ∧ overflow * 10 ^ (-power).toNat ≤ digits * 10 ^ power.toNat := by
  have hpos : 0 < overflow := by decide +kernel
  obtain ⟨most, hmost, hoverflow⟩ : ∃ most, most = 310 ∧ overflow ≤ 10 ^ most :=
    ⟨310, rfl, by decide +kernel⟩
  have hunit : 0 < overflow * 10 ^ (-power).toNat := Nat.mul_pos hpos (Nat.pow_pos (by decide))
  unfold ofDecimal
  dsimp only
  split
  · rename_i hzero
    exact iff_of_false nofun fun ⟨_, hle⟩ => by
      rw [hzero, Nat.zero_mul] at hle
      omega
  · rename_i hdigits
    have hfirst := Text.pow_pred_length_toDigits_le (Nat.pos_of_ne_zero hdigits)
    have hbound := lt_pow_length_toDigits digits
    split
    · rename_i hplaces
      have hreached : overflow * 10 ^ (-power).toNat ≤ digits * 10 ^ power.toNat := by
        calc
          overflow * 10 ^ (-power).toNat ≤ 10 ^ most * 10 ^ (-power).toNat := by gcongr
          _ ≤ 10 ^ ((Nat.toDigits 10 digits).length - 1) * 10 ^ power.toNat := by
            rw [← Nat.pow_add, ← Nat.pow_add]
            exact Nat.pow_le_pow_right (by decide) (by omega)
          _ ≤ digits * 10 ^ power.toNat := by gcongr
      rw [infinite.injEq]
      exact ⟨fun h => ⟨h.symm, hreached⟩, fun h => h.1.symm⟩
    · split
      · rename_i hplaces
        have hmissed : digits * 10 ^ power.toNat < overflow * 10 ^ (-power).toNat := by
          have hwhole : power.toNat = 0 := by omega
          calc
            digits * 10 ^ power.toNat = digits := by rw [hwhole, Nat.pow_zero, Nat.mul_one]
            _ < 10 ^ (Nat.toDigits 10 digits).length := hbound
            _ ≤ 10 ^ (-power).toNat := Nat.pow_le_pow_right (by decide) (by omega)
            _ ≤ overflow * 10 ^ (-power).toNat := Nat.le_mul_of_pos_left _ hpos
        exact iff_of_false nofun fun ⟨_, hle⟩ => by omega
      · split
        · rename_i hnegative
          rw [ofRatio_eq_infinite_iff (Nat.pow_pos (by decide)),
            Int.toNat_of_nonpos (Int.le_of_lt hnegative), Nat.pow_zero, Nat.mul_one]
        · rename_i hnegative
          have hzero : (-power).toNat = 0 := by omega
          rw [ofRatio_eq_infinite_iff Nat.one_pos, hzero, Nat.pow_zero]

theorem ofRatio_ne_nan : ofRatio negative num den ≠ .nan := by
  unfold ofRatio ofMagnitude
  split
  · nofun
  · dsimp only
    split <;> nofun

theorem ofDecimal_ne_nan {digits : Nat} {power : Int} : ofDecimal negative digits power ≠ .nan := by
  unfold ofDecimal
  dsimp only
  split_ifs
  · nofun
  · nofun
  · nofun
  · exact ofRatio_ne_nan
  · exact ofRatio_ne_nan

theorem isFinite_ofDecimal_iff {digits : Nat} {power : Int} :
    (ofDecimal negative digits power).isFinite = true ↔
      digits * 10 ^ power.toNat < overflow * 10 ^ (-power).toNat := by
  cases hx : ofDecimal negative digits power with
  | nan => exact absurd hx ofDecimal_ne_nan
  | infinite sign =>
      exact iff_of_false nofun (Nat.not_lt.mpr (ofDecimal_eq_infinite_iff.mp hx).2)
  | finite sign magnitude =>
      refine iff_of_true rfl (Nat.lt_of_not_le fun hle => ?_)
      rw [ofDecimal_eq_infinite_iff.mpr ⟨rfl, hle⟩] at hx
      contradiction

end Infinite

end SpanTags.Double
