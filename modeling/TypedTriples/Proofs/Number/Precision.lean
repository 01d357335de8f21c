import Mathlib
import TypedTriples.Proofs.Number.Denotation

/-!
# Decimals of fifteen digits

The numbers that round to one double with a full significand are so close
together that no two of them are points of a grid on which they have at most
fifteen digits. A decimal of at most fifteen digits is one of them, and what is
written for its double is on a grid at least as coarse, so it is the decimal
itself.

Main results:
* `IsBetweenMiddles.digits_unique`: one point of a grid rounds to a double.
* `decimalAt_eq`: what is written for the magnitude that a decimal of fifteen
  digits rounds to.
* `floatText_of_fifteen_digits`: such decimals survive.
-/

namespace TypedTriples

namespace Binary64

variable {index digits digits' : ℕ} {power : ℤ} {amount : ℚ}

/-! ## One point of a grid -/

theorem IsBetweenMiddles.digits_sub_mul_lt (h : IsBetweenMiddles index (digits * 10 ^ power))
    (h' : IsBetweenMiddles index (digits' * 10 ^ power)) (hfull : binade ≤ index) :
    ((digits' : ℚ) - digits) * 10 ^ 15 < digits := by
  have hten : (0 : ℚ) ≤ 10 ^ power := by positivity
  have hwidth := h.sub_mul_lt h' hfull
  rw [← sub_mul, mul_right_comm] at hwidth
  exact lt_of_mul_lt_mul_right hwidth hten

/-- **One point of a grid rounds to a double** with a full significand, as long as
    points have fifteen digits. -/
theorem IsBetweenMiddles.digits_unique (h : IsBetweenMiddles index (digits * 10 ^ power))
    (h' : IsBetweenMiddles index (digits' * 10 ^ power)) (hfull : binade ≤ index)
    (hdigits : digits < 10 ^ 15) : digits' = digits := by
  have hcast : (digits : ℚ) < 10 ^ 15 := by exact_mod_cast hdigits
  rcases lt_trichotomy digits digits' with hlt | heq | hgt
  · have hstep : (digits : ℚ) + 1 ≤ digits' := by exact_mod_cast hlt
    have hwidth := h.digits_sub_mul_lt h' hfull
    linarith
  · exact heq.symm
  · have hstep : (digits' : ℚ) + 1 ≤ digits := by exact_mod_cast hgt
    have hwidth := h'.digits_sub_mul_lt h hfull
    linarith

/-- **What is written for a magnitude** to which a decimal of fifteen digits rounds. -/
theorem decimalAt_eq (h : IsBetweenMiddles index (digits * 10 ^ power)) (hfull : binade ≤ index)
    (hdigits : digits < 10 ^ 15) (hpower : power ∈ gridPowers) :
    decimalAt index = digits * 10 ^ power := by
  have hindex : 0 < index := binade_pos.trans_le hfull
  have hshortest := isBetweenMiddles_shortest hindex
  rw [mul_ten_zpow_eq (power_le_shortest hindex hpower h)] at hshortest
  rw [decimalAt, if_neg hindex.ne', mul_ten_zpow_eq (power_le_shortest hindex hpower h),
    h.digits_unique hshortest hfull hdigits]

/-! ## The range -/

theorem ten_pow_lt_two_pow : (10 : ℚ) ^ 307 < 2 ^ 1020 := by
  have hlt : 10 ^ 307 < 2 ^ 1020 := by decide +kernel
  exact_mod_cast hlt

theorem ten_zpow_lt_overflow : (10 : ℚ) ^ (307 : ℤ) < overflow := by
  have hlow : (2 : ℚ) ^ 1020 = 2 ^ 50 * 2 ^ 970 := by rw [← pow_add]
  have hgreatest : (2 : ℚ) ^ 1024 = 2 ^ 54 * 2 ^ 970 := by rw [← pow_add]
  have hpos : (0 : ℚ) < 2 ^ 970 := by positivity
  calc (10 : ℚ) ^ (307 : ℤ) < 2 ^ 50 * 2 ^ 970 := by
        rw [zpow_ofNat, ← hlow]
        exact ten_pow_lt_two_pow
    _ ≤ overflow := by
        rw [overflow, hgreatest]
        generalize (2 : ℚ) ^ 970 = half at hpos ⊢
        linarith

theorem magnitudeAt_binade_lt : magnitudeAt binade < (10 : ℚ) ^ (-307 : ℤ) := by
  have hunits : units (0 * binade + binade) = binade * 2 ^ 0 := units_add (by decide) (.inl rfl)
  rw [Nat.zero_mul, Nat.zero_add] at hunits
  rw [magnitudeAt_of_units_eq hunits, binade_eq]
  calc ((2 ^ 52 : ℕ) : ℚ) * 2 ^ (((0 : ℕ) : ℤ) - 1074) = 2 ^ (-1022 : ℤ) := by
        rw [Nat.cast_pow, Nat.cast_ofNat, ← zpow_natCast, ← zpow_add₀ two_ne_zero]
        rfl
    _ ≤ 2 ^ (-1020 : ℤ) := zpow_le_zpow_right₀ one_le_two (by norm_num)
    _ < 10 ^ (-307 : ℤ) := by
        rw [zpow_neg, zpow_neg, zpow_ofNat, zpow_ofNat]
        exact inv_strictAnti₀ (by positivity) ten_pow_lt_two_pow

/-- From `10 ^ -307` on, significands have all their bits. -/
theorem IsBetweenMiddles.binade_le (h : IsBetweenMiddles index amount)
    (hlow : (10 : ℚ) ^ (-307 : ℤ) ≤ amount) : binade ≤ index := by
  by_contra hsmall
  have hindex : magnitudeAt index ≤ magnitudeAt binade :=
    magnitudeAt_strictMono.monotone (by omega)
  have hnext : magnitudeAt (index + 1) ≤ magnitudeAt binade :=
    magnitudeAt_strictMono.monotone (by omega)
  have hupper := h.le_add
  have hleast := magnitudeAt_binade_lt
  linarith

theorem mem_gridPowers_of_bounds (hdigits : digits < 10 ^ 15)
    (hlow : (10 : ℚ) ^ (-307 : ℤ) ≤ digits * 10 ^ power)
    (hhigh : (digits : ℚ) * 10 ^ power ≤ 10 ^ (307 : ℤ)) : power ∈ gridPowers := by
  have hten : (0 : ℚ) < 10 ^ power := by positivity
  have hcast : (digits : ℚ) < (10 : ℚ) ^ (15 : ℤ) := by exact_mod_cast hdigits
  have hone : (1 : ℚ) ≤ digits := by
    rw [Nat.one_le_cast, Nat.one_le_iff_ne_zero]
    rintro rfl
    have hpos : (0 : ℚ) < 10 ^ (-307 : ℤ) := by positivity
    rw [Nat.cast_zero, zero_mul] at hlow
    exact absurd hlow (not_le.mpr hpos)
  have hlower : (10 : ℚ) ^ (-307 : ℤ) < 10 ^ (15 + power) := by
    rw [zpow_add₀ (by norm_num)]
    exact hlow.trans_lt (mul_lt_mul_of_pos_right hcast hten)
  have hupper : (10 : ℚ) ^ power ≤ 10 ^ (307 : ℤ) :=
    (le_mul_of_one_le_left hten.le hone).trans hhigh
  rw [zpow_lt_zpow_iff_right₀ (by norm_num)] at hlower
  rw [zpow_le_zpow_iff_right₀ (by norm_num)] at hupper
  exact mem_gridPowers_iff.mpr ⟨by omega, by omega⟩

end Binary64

/-! ## Values -/

namespace Number

open Binary64

/-- **Decimals of fifteen digits survive.** A value with a number of at most fifteen
    significant digits from `10 ^ -307` to `10 ^ 307` in magnitude is written as that
    number. -/
theorem floatText_of_fifteen_digits {value : Text} {x : ℚ} {significand power : ℤ}
    (hx : StartsWithNumber value x) (hdecimal : x = significand * 10 ^ power)
    (hdigits : |significand| < 10 ^ 15) (hlow : (10 : ℚ) ^ (-307 : ℤ) ≤ |x|)
    (hhigh : |x| ≤ 10 ^ (307 : ℤ)) (y : ℚ) : Denotes (floatText value) y ↔ y = x := by
  obtain ⟨negative, amount, hamount, hsign, hrounds⟩ := hx.exists_roundsTo
  have habs : |x| = amount := hsign ▸ abs_withSign negative hamount
  have hpoint : amount = significand.natAbs * 10 ^ power := by
    have hten : (0 : ℚ) ≤ 10 ^ power := by positivity
    rw [← habs, hdecimal, abs_mul, abs_of_nonneg hten, Nat.cast_natAbs, Int.cast_abs]
  rw [habs] at hlow hhigh
  have hfinite := hrounds.index_lt_infinity_iff.mpr (hhigh.trans_lt ten_zpow_lt_overflow)
  have hbetween := hrounds.isBetweenMiddles hfinite
  have hfull := hbetween.binade_le hlow
  rw [hpoint] at hlow hhigh hbetween
  have hlt : significand.natAbs < 10 ^ 15 := by
    rw [Int.abs_eq_natAbs] at hdigits
    exact_mod_cast hdigits
  have hwritten := decimalAt_eq hbetween hfull hlt (mem_gridPowers_of_bounds hlt hlow hhigh)
  rw [floatText, denotes_text_iff hfinite, hwritten, ← hpoint, hrounds.negative_eq, hsign]

/-- Fifteen digits near the lower end of the range. -/
theorem floatText_of_fifteen_digits_small :
    StartsWithNumber "-1.23456789012345e-306 kg".toList
        ((-123456789012345 : ℤ) * 10 ^ (-320 : ℤ)) ∧
      Denotes (floatText "-1.23456789012345e-306 kg".toList)
        ((-123456789012345 : ℤ) * 10 ^ (-320 : ℤ)) := by
  have hdenotes : Denotes "-1.23456789012345e-306".toList
      ((-123456789012345 : ℤ) * 10 ^ (-320 : ℤ)) := by
    refine denotes_iff.mpr ⟨⟨true, 123456789012345, -320⟩, by decide, ?_⟩
    rw [withSign_true, Decimal.amount, Int.cast_neg, neg_mul]
    rfl
  have hstarts : StartsWithNumber "-1.23456789012345e-306 kg".toList
      ((-123456789012345 : ℤ) * 10 ^ (-320 : ℤ)) :=
    startsWithNumber_of_leadingFloat? (by decide +kernel) hdenotes
  have hten : (0 : ℚ) < 10 ^ (-320 : ℤ) := by positivity
  have habs : |((-123456789012345 : ℤ) : ℚ) * 10 ^ (-320 : ℤ)| =
      123456789012345 * 10 ^ (-320 : ℤ) := by
    rw [abs_mul, abs_of_pos hten, Int.cast_neg, abs_neg]
    exact congrArg (· * _) (abs_of_pos (by norm_num))
  have hlow : (10 : ℚ) ^ (-307 : ℤ) = 10 ^ 13 * 10 ^ (-320 : ℤ) := by
    rw [← zpow_natCast, ← zpow_add₀ (by norm_num)]
    rfl
  have hhigh : (10 : ℚ) ^ (-320 : ℤ) ≤ 1 := zpow_le_one_of_nonpos₀ (by norm_num) (by norm_num)
  refine ⟨hstarts, (floatText_of_fifteen_digits hstarts rfl (by decide) ?_ ?_ _).mpr rfl⟩
  · rw [habs, hlow]
    exact mul_le_mul_of_nonneg_right (by norm_num) hten.le
  · rw [habs, zpow_ofNat]
    calc (123456789012345 : ℚ) * 10 ^ (-320 : ℤ) ≤ 10 ^ 15 * 1 :=
          mul_le_mul (by norm_num) hhigh hten.le (by positivity)
      _ = 10 ^ 15 := mul_one _
      _ ≤ 10 ^ 307 := pow_le_pow_right₀ (by norm_num) (by norm_num)

end Number

end TypedTriples
