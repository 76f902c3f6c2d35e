import SpanTags.Proofs.Number.Extent

namespace SpanTags

theorem Text.pow_pred_length_toDigits_le {n : Nat} (hn : 0 < n) :
    10 ^ ((Nat.toDigits 10 n).length - 1) ≤ n := by
  by_contra hlt
  rw [Nat.not_le] at hlt
  rcases Nat.eq_zero_or_pos ((Nat.toDigits 10 n).length - 1) with hone | hpos
  · rw [hone] at hlt
    omega
  · have hlength := Nat.toDigits_length 10 n _ hpos hlt
    omega

namespace Double

section Interval

variable {i : Interval} {power place : Int} {count : Nat}

theorem gridScaled_eq (count : Nat) (power place : Int) :
    gridScaled count power place = count * gridScaled 1 power place := by
  unfold gridScaled
  rw [Nat.one_mul, Nat.mul_assoc, Nat.mul_assoc, Nat.mul_assoc]

theorem gridScaled_one_pos (power place : Int) : 0 < gridScaled 1 power place := by
  unfold gridScaled
  positivity

theorem scaled_eq (quarters : Nat) (power place : Int) :
    scaled quarters power place = quarters * scaled 1 power place := by
  unfold scaled
  rw [Nat.one_mul, Nat.mul_assoc]

theorem scaled_lt_scaled {quarters quarters' : Nat} (h : quarters < quarters')
    (power place : Int) : scaled quarters power place < scaled quarters' power place := by
  unfold scaled
  gcongr

theorem Interval.low_le_of_contains (h : i.contains power place count = true) :
    scaled i.low power place ≤ gridScaled count power place := by
  unfold Interval.contains at h
  dsimp only at h
  split at h <;> simp only [Bool.and_eq_true, decide_eq_true_eq] at h <;> omega

theorem Interval.beyond_of_not_contains (h : i.contains power place count = false) :
    gridScaled count power place ≤ scaled i.low power place ∨
      scaled i.high power place ≤ gridScaled count power place := by
  unfold Interval.contains at h
  dsimp only at h
  split at h <;> simp only [Bool.and_eq_false_iff, decide_eq_false_iff_not] at h <;> omega

theorem Interval.contains_of_gridPoint? {digits : Nat}
    (h : i.gridPoint? power place = some digits) : i.contains power place digits = true := by
  unfold Interval.gridPoint? at h
  dsimp only at h
  split at h
  · contradiction
  · obtain rfl := Option.some.inj h
    assumption
  · obtain rfl := Option.some.inj h
    assumption
  · split_ifs at h
    all_goals
      obtain rfl := Option.some.inj h
      assumption

theorem Interval.pos_of_gridPoint? (hlow : 0 < i.low) {digits : Nat}
    (h : i.gridPoint? power place = some digits) : 0 < digits := by
  have hscaled := scaled_lt_scaled hlow power place
  have hdigits := Interval.low_le_of_contains (Interval.contains_of_gridPoint? h)
  rw [gridScaled_eq] at hdigits
  refine Nat.pos_of_ne_zero ?_
  rintro rfl
  omega

-- An interval that has neither neighbour of its value fits between the two.
theorem Interval.le_of_gridPoint?_eq_none (hlow : i.low ≤ i.value) (hhigh : i.value < i.high)
    (h : i.gridPoint? power place = none) :
    scaled i.high power place ≤ scaled i.low power place + gridScaled 1 power place := by
  have hvalue : scaled i.low power place ≤ scaled i.value power place :=
    Nat.mul_le_mul_right _ (Nat.mul_le_mul_right _ hlow)
  have hpast := scaled_lt_scaled hhigh power place
  have hunit := gridScaled_one_pos power place
  have hbelow := Nat.div_mul_le_self (scaled i.value power place) (gridScaled 1 power place)
  have habove := Nat.lt_div_mul_add (a := scaled i.value power place) hunit
  unfold Interval.gridPoint? at h
  dsimp only at h
  split at h
  · rename_i hleft hright
    have hleft := Interval.beyond_of_not_contains hleft
    have hright := Interval.beyond_of_not_contains hright
    rw [gridScaled_eq] at hleft hright
    rw [Nat.add_mul, Nat.one_mul] at hright
    omega
  · contradiction
  · contradiction
  · split_ifs at h

end Interval

section Magnitude

variable {magnitude : Nat}

theorem significand_pos (h : 0 < magnitude) : 0 < significand magnitude := by
  unfold significand
  split <;> omega

theorem interval_low_pos (h : 0 < magnitude) : 0 < (interval magnitude).low := by
  have hpos := significand_pos h
  simp only [interval]
  split <;> omega

-- The interval of a double is wider than the sixteenth decimal digit of its value is fine.
theorem value_lt_width (h : 0 < magnitude) :
    (interval magnitude).low * 10 ^ 16 + (interval magnitude).value <
      (interval magnitude).high * 10 ^ 16 := by
  have hpos := significand_pos h
  have hlt := significand_lt magnitude
  simp only [interval]
  split
  · rename_i hnarrow
    simp only [Bool.and_eq_true, decide_eq_true_eq] at hnarrow
    have heq : significand magnitude = 2 ^ 52 := by
      unfold significand
      rw [if_neg (by omega), hnarrow.1, Nat.zero_add]
    omega
  · omega

-- The first digit before the point is not zero.
theorem pow_le_of_integerPlaces (hpos : 0 < magnitude) :
    10 ^ (integerPlaces magnitude + 399).toNat * 2 ^ (-exponent magnitude).toNat ≤
      significand magnitude * 10 ^ 400 * 2 ^ (exponent magnitude).toNat := by
  have hunit : 0 < 2 ^ (-exponent magnitude).toNat := Nat.two_pow_pos _
  have hexponent : (-exponent magnitude).toNat ≤ 1074 := by
    unfold exponent
    omega
  have hsmall : 2 ^ (-exponent magnitude).toNat ≤ 10 ^ 400 :=
    (Nat.pow_le_pow_right Nat.two_pos hexponent).trans (by decide +kernel)
  have hlarge : 10 ^ 400 ≤
      significand magnitude * 10 ^ 400 * 2 ^ (exponent magnitude).toNat := by
    rw [Nat.mul_right_comm]
    exact Nat.le_mul_of_pos_left _ (Nat.mul_pos (significand_pos hpos) (Nat.two_pow_pos _))
  have hwhole := Nat.div_pos (hsmall.trans hlarge) hunit
  have hdigits := Text.pow_pred_length_toDigits_le hwhole
  have hplaces : (integerPlaces magnitude + 399).toNat = (Nat.toDigits 10
      (significand magnitude * 10 ^ 400 * 2 ^ (exponent magnitude).toNat /
        2 ^ (-exponent magnitude).toNat)).length - 1 := by
    unfold integerPlaces
    dsimp only
    omega
  rw [hplaces]
  exact (Nat.le_div_iff_mul_le hunit).mp hdigits

-- Sixteen places after the first digit, a step of the grid is less than the value by sixteen
-- digits.
theorem pow_mul_gridScaled_le (hpos : 0 < magnitude) (h : magnitude < 0x7FF0000000000000) :
    10 ^ 16 * gridScaled 1 (exponent magnitude) (integerPlaces magnitude - 17) ≤
      scaled (interval magnitude).value (exponent magnitude) (integerPlaces magnitude - 17) := by
  obtain ⟨hleast, -⟩ := integerPlaces_bounds h
  have hfirst := pow_le_of_integerPlaces hpos
  set place := integerPlaces magnitude - 17 with hplace
  have hpower : 10 ^ (integerPlaces magnitude + 399).toNat * 10 ^ (-place).toNat =
      10 ^ 400 * (10 ^ 16 * 10 ^ place.toNat) := by
    have hplaces : (integerPlaces magnitude + 399).toNat + (-place).toNat =
        400 + (16 + place.toNat) := by omega
    simp only [← Nat.pow_add, hplaces]
  have hscaled := Nat.mul_le_mul_right (10 ^ (-place).toNat * 4) hfirst
  have hgrid : 10 ^ (integerPlaces magnitude + 399).toNat * 2 ^ (-exponent magnitude).toNat *
      (10 ^ (-place).toNat * 4) =
        10 ^ 400 * (10 ^ 16 * gridScaled 1 (exponent magnitude) place) := by
    rw [Nat.mul_mul_mul_comm, hpower, gridScaled]
    generalize 10 ^ 400 = large
    ring
  have hvalue : significand magnitude * 10 ^ 400 * 2 ^ (exponent magnitude).toNat *
      (10 ^ (-place).toNat * 4) =
        10 ^ 400 * scaled (interval magnitude).value (exponent magnitude) place := by
    rw [scaled, interval]
    generalize 10 ^ 400 = large
    ring
  rw [hgrid, hvalue] at hscaled
  have hlarge : 0 < 10 ^ 400 := by decide +kernel
  generalize 10 ^ 400 = large at hscaled hlarge
  exact Nat.le_of_mul_le_mul_left hscaled hlarge

-- On the seventeenth try the grid is finer than the interval is wide.
theorem gridPoint?_ne_none (hpos : 0 < magnitude) (h : magnitude < 0x7FF0000000000000) :
    (interval magnitude).gridPoint? (exponent magnitude) (integerPlaces magnitude - 17) ≠ none := by
  intro hnone
  have hlow : (interval magnitude).low ≤ (interval magnitude).value := Nat.sub_le _ _
  have hhigh : (interval magnitude).value < (interval magnitude).high :=
    Nat.lt_add_of_pos_right Nat.two_pos
  have hwidth := Interval.le_of_gridPoint?_eq_none hlow hhigh hnone
  have hfine := pow_mul_gridScaled_le hpos h
  have hwide := scaled_lt_scaled (value_lt_width hpos) (exponent magnitude)
    (integerPlaces magnitude - 17)
  rw [scaled_eq] at hwidth hfine hwide
  rw [scaled_eq (interval magnitude).low] at hwidth
  rw [scaled_eq (_ * _), Nat.add_mul] at hwide
  linarith

theorem shortestFrom_pos {i : Interval} {power places : Int} (hlow : 0 < i.low) (tries count : Nat)
    (h : ∃ digits, i.gridPoint? power (places - ((count + tries : Nat) : Int)) = some digits) :
    0 < (shortestFrom i power places (tries + 1) count).1 := by
  induction tries generalizing count with
  | zero =>
      obtain ⟨digits, hdigits⟩ := h
      rw [Nat.add_zero] at hdigits
      rw [shortestFrom, hdigits]
      exact Interval.pos_of_gridPoint? hlow hdigits
  | succ tries ih =>
      rw [shortestFrom]
      split
      · rename_i digits hdigits
        exact Interval.pos_of_gridPoint? hlow hdigits
      · refine ih (count + 1) ?_
        rwa [Nat.add_assoc, Nat.add_comm 1 tries]

-- The digits of a double that is not zero are not zero.
theorem shortest_pos (hpos : 0 < magnitude) (h : magnitude < 0x7FF0000000000000) :
    0 < (shortest magnitude).1 :=
  shortestFrom_pos (interval_low_pos hpos) 16 1
    (Option.ne_none_iff_exists'.mp (gridPoint?_ne_none hpos h))

end Magnitude

end Double

end SpanTags
