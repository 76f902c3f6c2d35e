import SpanTags.Number.Layout
import Mathlib.Data.Nat.Digits.Defs

namespace SpanTags

namespace Text

theorem length_ofNat_le {n k : Nat} (hk : 0 < k) (h : n < 10 ^ k) : (ofNat n).length ≤ k := by
  rw [ofNat, List.length_map]
  exact Nat.toDigits_length 10 n k hk h

theorem length_ofNat_pos (n : Nat) : 0 < (ofNat n).length := by
  rw [ofNat, List.length_map]
  exact Nat.length_toDigits_pos

-- A sign takes one place more.
theorem length_ofInt_le {n : Int} {k : Nat} (hk : 0 < k) (h : n.natAbs < 10 ^ k) :
    (ofInt n).length ≤ k + 1 := by
  have hdigits := length_ofNat_le hk h
  unfold ofInt
  split
  · rw [List.length_cons]
    omega
  · omega

theorem length_trimRight_le (drop : CodePoint → Bool) (t : Text) :
    (t.trimRight drop).length ≤ t.length := by
  have h := (List.dropWhile_sublist (p := drop) (l := t.reverse)).length_le
  rw [trimRight, List.length_reverse]
  rwa [List.length_reverse] at h

end Text

namespace Layout

theorem length_positional_le (digits : Text) (places : Int) :
    (positional digits places).length ≤ digits.length + places.natAbs + 3 := by
  have hpoint : (Text.ofString "0.").length = 2 := rfl
  have hdot : (Text.ofString ".").length = 1 := rfl
  unfold positional
  dsimp only
  split
  · rw [List.length_append, List.length_append, zeros, List.length_replicate, hpoint]
    omega
  · have hfraction : (if (digits.drop places.toNat).isEmpty then zeros 1
        else digits.drop places.toNat).length ≤ digits.length + 1 := by
      split
      · rw [zeros, List.length_replicate]
        omega
      · rw [List.length_drop]
        omega
    rw [List.length_append, List.length_append, List.length_append, List.length_take, zeros,
      List.length_replicate, hdot]
    omega

theorem length_scientific_le (layout : Layout) (digits : Text) (places : Int) :
    (layout.scientific digits places).length ≤
      digits.length + layout.exponentWidth + (Text.ofNat (places - 1).natAbs).length + 4 := by
  have hpoint : (if (digits.drop 1).isEmpty then ("" : Text) else ".").length ≤ 1 := by
    split <;> decide
  have hsign : (if places - 1 < 0 then ("-" : Text) else "+").length = 1 := by
    split <;> rfl
  have hmark : (Text.ofString "e").length = 1 := rfl
  unfold scientific
  simp only [List.length_append, List.length_take, List.length_drop, zeros, List.length_replicate,
    hsign, hmark]
  omega

-- Places beyond those that are written out cost no more than the digits of their number.
theorem length_render_plain_le {digits k : Nat} {place : Int} (hk : 0 < k)
    (hdigits : digits < 10 ^ k) (hplace : place.natAbs + k < 10 ^ k) :
    (plain.render digits place).length ≤ 2 * k + 19 := by
  have hall := Text.length_ofNat_le hk hdigits
  have hkept := Text.length_trimRight_le (fun c => c = '0') (Text.ofNat digits)
  unfold render
  dsimp only
  split
  · rename_i hplaces
    have hpositional := length_positional_le
      ((Text.ofNat digits).trimRight fun c => c = '0') ((Text.ofNat digits).length + place)
    simp only [plain] at hplaces
    omega
  · have hscientific := length_scientific_le plain
      ((Text.ofNat digits).trimRight fun c => c = '0') ((Text.ofNat digits).length + place)
    have hpos := Text.length_ofNat_pos digits
    have hsize : (Text.ofNat ((Text.ofNat digits).length + place - 1).natAbs).length ≤ k := by
      apply Text.length_ofNat_le hk
      omega
    simp only [plain] at hscientific ⊢
    omega

end Layout

namespace Double

section Magnitude

variable {magnitude : Nat}

theorem significand_lt (magnitude : Nat) : significand magnitude < 2 ^ 53 := by
  unfold significand
  split <;> omega

theorem exponent_le (h : magnitude < 0x7FF0000000000000) : exponent magnitude ≤ 971 := by
  unfold exponent
  omega

-- Less than a power of ten that is the same for all doubles.
theorem units_lt (h : magnitude < 0x7FF0000000000000) :
    significand magnitude * 2 ^ (exponent magnitude).toNat < 10 ^ 309 := by
  have hexponent : (exponent magnitude).toNat ≤ 971 := Int.toNat_le.mpr (exponent_le h)
  have hpower := Nat.pow_le_pow_right Nat.two_pos hexponent
  have hunits := Nat.mul_le_mul (significand_lt magnitude).le hpower
  have hlarge : 2 ^ 53 * 2 ^ 971 < 10 ^ 309 := by decide +kernel
  exact hunits.trans_lt hlarge

theorem integerPlaces_bounds (h : magnitude < 0x7FF0000000000000) :
    -400 < integerPlaces magnitude ∧ integerPlaces magnitude ≤ 309 := by
  have hpos : 0 < 10 ^ 400 := by decide +kernel
  have hscaled := Nat.mul_lt_mul_of_pos_right (units_lt h) hpos
  rw [← Nat.pow_add 10 309 400, Nat.mul_right_comm] at hscaled
  have hwhole := (Nat.div_le_self _ (2 ^ (-exponent magnitude).toNat)).trans_lt hscaled
  have hlength := Text.length_ofNat_le (by decide) hwhole
  have hnonempty := Text.length_ofNat_pos (significand magnitude * 10 ^ 400 *
    2 ^ (exponent magnitude).toNat / 2 ^ (-exponent magnitude).toNat)
  rw [Text.ofNat, List.length_map] at hlength hnonempty
  unfold integerPlaces
  dsimp only
  omega

end Magnitude

section Shortest

variable {i : Interval} {power place places : Int}

theorem Interval.le_of_gridPoint? {digits : Nat} (h : i.gridPoint? power place = some digits) :
    digits ≤ scaled i.value power place + 1 := by
  have hbelow := Nat.div_le_self (scaled i.value power place) (gridScaled 1 power place)
  have hchoice : digits = scaled i.value power place / gridScaled 1 power place ∨
      digits = scaled i.value power place / gridScaled 1 power place + 1 := by
    unfold Interval.gridPoint? at h
    dsimp only at h
    split at h
    · contradiction
    · exact .inl (Option.some.inj h).symm
    · exact .inr (Option.some.inj h).symm
    · split_ifs at h
      all_goals
        first
        | exact .inl (Option.some.inj h).symm
        | exact .inr (Option.some.inj h).symm
  omega

theorem scaled_le {quarters units k : Nat} (hunits : quarters * 2 ^ power.toNat ≤ units)
    (hplace : (-place).toNat ≤ k) : scaled quarters power place ≤ units * 10 ^ k :=
  Nat.mul_le_mul hunits (Nat.pow_le_pow_right (by decide) hplace)

-- With each try one more place counts, so the last try bounds the digits of all.
theorem shortestFrom_bounds {units k : Nat} (hunits : i.value * 2 ^ power.toNat ≤ units)
    (tries count : Nat) (h : ((count + tries : Nat) - places).toNat ≤ k) :
    (shortestFrom i power places tries count).1 ≤ units * 10 ^ k + 1 ∧
      places - (count + tries : Nat) ≤ (shortestFrom i power places tries count).2 ∧
      (shortestFrom i power places tries count).2 ≤ places - count := by
  induction tries generalizing count with
  | zero =>
      have hdigits := Nat.div_le_self (scaled i.value power 0) (gridScaled 1 power 0)
      have hplace : (-(0 : Int)).toNat ≤ k := Nat.zero_le k
      have hscaled := scaled_le hunits hplace
      refine ⟨(hdigits.trans hscaled).trans (Nat.le_succ _), ?_, le_refl _⟩
      simp [shortestFrom]
  | succ tries ih =>
      unfold shortestFrom
      dsimp only
      split
      · rename_i digits hpoint
        have hdigits := Interval.le_of_gridPoint? hpoint
        have hplace : (-(places - (count : Int))).toNat ≤ k := by omega
        have hscaled := scaled_le hunits hplace
        refine ⟨by omega, ?_, le_refl _⟩
        push_cast
        omega
      · obtain ⟨hdigits, hlow, hhigh⟩ := ih (count + 1) (by omega)
        exact ⟨hdigits, by omega, by omega⟩

theorem shortest_bounds {magnitude : Nat} (h : magnitude < 0x7FF0000000000000) :
    (shortest magnitude).1 < 10 ^ 728 ∧ (shortest magnitude).2.natAbs ≤ 417 := by
  obtain ⟨hleast, hmost⟩ := integerPlaces_bounds h
  have hunits : (interval magnitude).value * 2 ^ (exponent magnitude).toNat ≤ 4 * 10 ^ 309 := by
    have hquarters := Nat.mul_le_mul_left 4 (units_lt h).le
    rwa [← Nat.mul_assoc] at hquarters
  have hplaces : ((1 + 17 : Nat) - integerPlaces magnitude).toNat ≤ 417 := by omega
  obtain ⟨hdigits, hlow, hhigh⟩ := shortestFrom_bounds hunits 17 1 hplaces
  have hlarge : 4 * 10 ^ 309 * 10 ^ 417 + 1 < 10 ^ 728 := by decide +kernel
  refine ⟨hdigits.trans_lt hlarge, ?_⟩
  unfold shortest
  omega

end Shortest

-- Far more than any double needs, and less than a tag may hold.
theorem length_text_le (x : Double) : x.text.length ≤ 1500 := by
  have hsigned : ∀ negative t, (signed negative t).length ≤ t.length + 1 := by
    intro negative t
    unfold signed
    split
    · exact Nat.le_refl _
    · exact Nat.le_succ _
  cases x with
  | nan => decide
  | infinite negative => exact (hsigned negative _).trans (by decide)
  | finite negative magnitude =>
      have hmagnitude : (magnitudeText magnitude.val).length ≤ 1480 := by
        unfold magnitudeText
        split
        · decide
        · obtain ⟨hdigits, hplace⟩ := shortest_bounds magnitude.isLt
          have hfits : (shortest magnitude.val).2.natAbs + 728 < 10 ^ 728 :=
            (Nat.add_le_add_right hplace 728).trans_lt (by decide +kernel)
          have hrender := Layout.length_render_plain_le (by decide) hdigits hfits
          exact hrender.trans (by decide)
      exact (hsigned negative _).trans (by omega)

end Double

end SpanTags
