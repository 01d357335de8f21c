import Mathlib
import TypedTriples.Proofs.Number.Magnitude

/-!
# Rounding to double precision

The double that a number rounds to is defined by distances alone: no magnitude
is nearer, and of two that are equally near it is the one with the even
significand. This determines it, and `Decimal.toBinary64` finds it.

Main definitions:
* `Binary64.IsNearest`: a magnitude nearest to an amount.
* `Binary64.RoundsTo`: the double that a sign and an amount round to.
* `Binary64.IsBetweenMiddles`: the same by the middles to the two neighbours,
  as the library computes it.

Main results:
* `RoundsTo.index_le`, `RoundsTo.unique`: rounding is monotone, and to one
  double.
* `Decimal.roundsTo_toBinary64`: a decimal number is rounded correctly.
-/

namespace TypedTriples

namespace Binary64

/-! ## Specification -/

/-- The least amount that rounds to infinity, half a unit above the greatest
    finite magnitude. -/
def overflow : ℚ := 2 ^ 1024 - 2 ^ 970

/-- No magnitude is nearer to the amount, and if another is as near, this one
    has the even significand. -/
structure IsNearest (amount q : ℚ) : Prop where
  isMagnitude : IsMagnitude q
  le : ∀ other, IsMagnitude other → |q - amount| ≤ |other - amount|
  even_of_eq : ∀ other, IsMagnitude other → other ≠ q → |other - amount| = |q - amount| →
    HasEvenSignificand q

/-- The double that a sign and an amount round to. -/
inductive RoundsTo (negative : Bool) (amount : ℚ) : Binary64 → Prop
  | finite {index : ℕ} (hlt : amount < overflow) (hindex : index < infinity)
      (hnearest : IsNearest amount (magnitudeAt index)) : RoundsTo negative amount ⟨negative, index⟩
  | infinite (hle : overflow ≤ amount) : RoundsTo negative amount ⟨negative, infinity⟩

/-! ## Distances -/

theorem abs_sub_le_iff_le_add {x y amount : ℚ} (h : x < y) :
    |x - amount| ≤ |y - amount| ↔ 2 * amount ≤ x + y := by
  have hsquares : (y - amount) ^ 2 - (x - amount) ^ 2 = (y - x) * (x + y - 2 * amount) := by ring
  rw [← sq_le_sq, ← sub_nonneg, hsquares, mul_nonneg_iff_of_pos_left (sub_pos.mpr h), sub_nonneg]

theorem abs_sub_le_iff_add_le {x y amount : ℚ} (h : x < y) :
    |y - amount| ≤ |x - amount| ↔ x + y ≤ 2 * amount := by
  have hsquares : (x - amount) ^ 2 - (y - amount) ^ 2 = (y - x) * (2 * amount - (x + y)) := by ring
  rw [← sq_le_sq, ← sub_nonneg, hsquares, mul_nonneg_iff_of_pos_left (sub_pos.mpr h), sub_nonneg]

theorem isMagnitude_magnitudeAt {index : ℕ} (h : index < infinity) :
    IsMagnitude (magnitudeAt index) :=
  isMagnitude_iff.mpr ⟨index, h, rfl⟩

/-! ## Rounding is monotone -/

theorem IsNearest.index_le {amount amount' : ℚ} {index index' : ℕ}
    (h : IsNearest amount (magnitudeAt index)) (h' : IsNearest amount' (magnitudeAt index'))
    (hindex : index < infinity) (hindex' : index' < infinity) (hle : amount ≤ amount') :
    index ≤ index' := by
  by_contra hgt
  rw [Nat.not_le] at hgt
  -- Both amounts would be in the middle of the two magnitudes.
  have hlt := magnitudeAt_strictMono hgt
  have hmiddle := (abs_sub_le_iff_add_le hlt).mp (h.le _ (isMagnitude_magnitudeAt hindex'))
  have hmiddle' := (abs_sub_le_iff_le_add hlt).mp (h'.le _ (isMagnitude_magnitudeAt hindex))
  obtain rfl : amount = amount' := by linarith
  have htie := le_antisymm (h.le _ (isMagnitude_magnitudeAt hindex'))
    (h'.le _ (isMagnitude_magnitudeAt hindex))
  have heven := (hasEvenSignificand_iff hindex).mp
    (h.even_of_eq _ (isMagnitude_magnitudeAt hindex') hlt.ne htie.symm)
  have heven' := (hasEvenSignificand_iff hindex').mp
    (h'.even_of_eq _ (isMagnitude_magnitudeAt hindex) hlt.ne' htie)
  -- As both are even, there is a magnitude between them, and it is nearer.
  have hnext : magnitudeAt (index' + 1) < magnitudeAt index :=
    magnitudeAt_strictMono (by omega)
  have hbetween := (abs_sub_le_iff_add_le hnext).mp
    (h.le _ (isMagnitude_magnitudeAt (by omega)))
  have hless : magnitudeAt index' < magnitudeAt (index' + 1) :=
    magnitudeAt_strictMono (Nat.lt_succ_self index')
  linarith

/-- **Rounding is monotone.** -/
theorem RoundsTo.index_le {negative negative' : Bool} {amount amount' : ℚ} {x y : Binary64}
    (hx : RoundsTo negative amount x) (hy : RoundsTo negative' amount' y)
    (hle : amount ≤ amount') : x.index ≤ y.index := by
  cases hx with
  | finite hlt hindex hnearest =>
    cases hy with
    | finite hlt' hindex' hnearest' => exact hnearest.index_le hnearest' hindex hindex' hle
    | infinite hover' => exact hindex.le
  | infinite hover =>
    cases hy with
    | finite hlt' hindex' hnearest' => exact absurd (hover.trans hle) (not_le.mpr hlt')
    | infinite hover' => exact le_rfl

theorem RoundsTo.negative_eq {negative : Bool} {amount : ℚ} {x : Binary64}
    (h : RoundsTo negative amount x) : x.negative = negative := by
  cases h <;> rfl

/-- **Rounding is to one double.** -/
theorem RoundsTo.unique {negative : Bool} {amount : ℚ} {x y : Binary64}
    (hx : RoundsTo negative amount x) (hy : RoundsTo negative amount y) : x = y := by
  obtain ⟨xsign, xindex⟩ := x
  obtain ⟨ysign, yindex⟩ := y
  obtain rfl : xsign = ysign := hx.negative_eq.trans hy.negative_eq.symm
  obtain rfl : xindex = yindex := le_antisymm (hx.index_le hy le_rfl) (hy.index_le hx le_rfl)
  rfl

/-! ## Between the middles -/

/-- An amount lies between the middles to the two neighbours of a magnitude. The
    middles themselves belong to the even index. -/
structure IsBetweenMiddles (index : ℕ) (amount : ℚ) : Prop where
  lower : ∀ before, index = before + 1 →
    magnitudeAt before + magnitudeAt index < 2 * amount ∨
      index % 2 = 0 ∧ magnitudeAt before + magnitudeAt index = 2 * amount
  upper : 2 * amount < magnitudeAt index + magnitudeAt (index + 1) ∨
    index % 2 = 0 ∧ 2 * amount = magnitudeAt index + magnitudeAt (index + 1)

/-- Other magnitudes above are no nearer than the next. -/
theorem IsBetweenMiddles.upper_of_lt {index other : ℕ} {amount : ℚ}
    (h : IsBetweenMiddles index amount) (hlt : index < other) :
    2 * amount < magnitudeAt index + magnitudeAt other ∨
      index % 2 = 0 ∧ 2 * amount ≤ magnitudeAt index + magnitudeAt other := by
  have hnext : magnitudeAt (index + 1) ≤ magnitudeAt other :=
    magnitudeAt_strictMono.monotone hlt
  rcases h.upper with hupper | ⟨heven, hupper⟩
  · exact .inl (by linarith)
  · exact .inr ⟨heven, by linarith⟩

/-- Other magnitudes below are no nearer than the one before. -/
theorem IsBetweenMiddles.lower_of_lt {index other : ℕ} {amount : ℚ}
    (h : IsBetweenMiddles index amount) (hlt : other < index) :
    magnitudeAt other + magnitudeAt index < 2 * amount ∨
      index % 2 = 0 ∧ magnitudeAt other + magnitudeAt index ≤ 2 * amount := by
  obtain ⟨before, rfl⟩ := Nat.exists_eq_add_of_lt hlt
  have hbefore : magnitudeAt other ≤ magnitudeAt (other + before) :=
    magnitudeAt_strictMono.monotone (Nat.le_add_right other before)
  rcases h.lower (other + before) rfl with hlower | ⟨heven, hlower⟩
  · exact .inl (by linarith)
  · exact .inr ⟨heven, by linarith⟩

theorem IsBetweenMiddles.isNearest {index : ℕ} {amount : ℚ} (h : IsBetweenMiddles index amount)
    (hindex : index < infinity) : IsNearest amount (magnitudeAt index) where
  isMagnitude := isMagnitude_magnitudeAt hindex
  le q hq := by
    obtain ⟨other, -, rfl⟩ := isMagnitude_iff.mp hq
    rcases lt_trichotomy index other with hlt | rfl | hgt
    · rw [abs_sub_le_iff_le_add (magnitudeAt_strictMono hlt)]
      exact (h.upper_of_lt hlt).elim le_of_lt And.right
    · exact le_rfl
    · rw [abs_sub_le_iff_add_le (magnitudeAt_strictMono hgt)]
      exact (h.lower_of_lt hgt).elim le_of_lt And.right
  even_of_eq q hq hne heq := by
    obtain ⟨other, -, rfl⟩ := isMagnitude_iff.mp hq
    rw [hasEvenSignificand_iff hindex]
    rcases lt_trichotomy index other with hlt | rfl | hgt
    · have htie := (abs_sub_le_iff_add_le (magnitudeAt_strictMono hlt)).mp heq.le
      exact (h.upper_of_lt hlt).elim (fun hlow => absurd htie (not_le.mpr hlow)) And.left
    · exact absurd rfl hne
    · have htie := (abs_sub_le_iff_le_add (magnitudeAt_strictMono hgt)).mp heq.le
      exact (h.lower_of_lt hgt).elim (fun hhigh => absurd htie (not_le.mpr hhigh)) And.left

theorem isBetweenMiddles_of_lt {amount : ℚ} (h : 2 * amount < magnitudeAt 0 + magnitudeAt 1) :
    IsBetweenMiddles 0 amount :=
  ⟨fun before h => absurd h.symm (Nat.succ_ne_zero before), .inl h⟩

theorem isBetweenMiddles_zero : IsBetweenMiddles 0 0 := by
  have hnext := magnitudeAt_strictMono Nat.zero_lt_one
  refine isBetweenMiddles_of_lt ?_
  rw [magnitudeAt_zero] at hnext
  rwa [magnitudeAt_zero, zero_add, mul_zero]

/-! ## Infinity -/

theorem infinity_eq : infinity = 2045 * binade + (2 * binade - 1) + 1 := by
  have := binade_pos
  rw [infinity]
  omega

theorem magnitudeAt_infinity_add {last : ℕ} (hlast : infinity = last + 1) :
    magnitudeAt last + magnitudeAt infinity = 2 * overflow := by
  have hpos := binade_pos
  obtain rfl : last = 2045 * binade + (2 * binade - 1) := by
    rw [infinity_eq] at hlast
    omega
  have hlt : 2 * binade - 1 < 2 * binade := by omega
  have hnormal : 2045 = 0 ∨ binade ≤ 2 * binade - 1 := .inr (by omega)
  have hbelow := magnitudeAt_of_units_eq (units_add hlt hnormal)
  have habove := magnitudeAt_of_units_eq (units_add_succ hlt hnormal)
  have hpower : ((2045 : ℕ) : ℤ) - 1074 = (971 : ℕ) := by norm_num
  have hsignificand : ((2 * binade - 1 : ℕ) : ℚ) = 2 ^ 53 - 1 := by norm_num [binade_eq]
  have hnext : ((2 * binade - 1 + 1 : ℕ) : ℚ) = 2 ^ 53 := by norm_num [binade_eq]
  have hunit : (2 : ℚ) ^ 971 = 2 * 2 ^ 970 := by rw [← pow_succ']
  have hgreatest : (2 : ℚ) ^ 1024 = 2 ^ 54 * 2 ^ 970 := by rw [← pow_add]
  rw [hlast, hbelow, habove, overflow, hpower, zpow_natCast, hsignificand, hnext, hgreatest, hunit]
  generalize (2 : ℚ) ^ 970 = half
  ring

theorem even_infinity : infinity % 2 = 0 := rfl

theorem IsBetweenMiddles.lt_overflow {index : ℕ} {amount : ℚ} (h : IsBetweenMiddles index amount)
    (hindex : index < infinity) : amount < overflow := by
  have hlast := infinity_eq
  generalize 2045 * binade + (2 * binade - 1) = last at hlast
  have hmiddle := magnitudeAt_infinity_add hlast
  rcases h.upper_of_lt hindex with hupper | ⟨heven, hupper⟩
  · have hle : magnitudeAt index ≤ magnitudeAt last :=
      magnitudeAt_strictMono.monotone (by omega)
    linarith
  · -- the greatest finite magnitude has an odd index
    have hodd := even_infinity
    have hlt : magnitudeAt index < magnitudeAt last := magnitudeAt_strictMono (by omega)
    linarith

theorem IsBetweenMiddles.overflow_le {index : ℕ} {amount : ℚ} (h : IsBetweenMiddles index amount)
    (hindex : infinity ≤ index) : overflow ≤ amount := by
  have hlast := infinity_eq
  generalize 2045 * binade + (2 * binade - 1) = last at hlast
  have hmiddle := magnitudeAt_infinity_add hlast
  have hle : magnitudeAt infinity ≤ magnitudeAt index := magnitudeAt_strictMono.monotone hindex
  have hlower : magnitudeAt last + magnitudeAt index ≤ 2 * amount :=
    (h.lower_of_lt (by omega)).elim le_of_lt And.right
  linarith

theorem IsBetweenMiddles.roundsTo {index : ℕ} {amount : ℚ} (h : IsBetweenMiddles index amount)
    (negative : Bool) : RoundsTo negative amount ⟨negative, min infinity index⟩ := by
  rcases lt_or_ge index infinity with hindex | hindex
  · rw [min_eq_right hindex.le]
    exact .finite (h.lt_overflow hindex) hindex (h.isNearest hindex)
  · rw [min_eq_left hindex]
    exact .infinite (h.overflow_le hindex)

/-! ## The nearest index -/

theorem magnitudeAt_add_mul (index index' scale : ℕ) :
    (magnitudeAt index + magnitudeAt index') * (one * scale) =
      ((units index + units index') * scale : ℕ) := by
  have hne := cast_one_pos.ne'
  rw [magnitudeAt, magnitudeAt]
  field_simp
  push_cast
  ring

section Scaled

variable {amount : ℚ} {scale point : ℕ} (hscale : 0 < scale)
  (hpoint : 2 * amount * (one * scale) = point)
include hscale hpoint

/-- With a scale that makes an amount whole, middles are compared with it in
    whole numbers. -/
theorem add_lt_iff_scaled (index index' : ℕ) :
    magnitudeAt index + magnitudeAt index' < 2 * amount ↔
      (units index + units index') * scale < point := by
  have hpos : (0 : ℚ) < one * scale := mul_pos cast_one_pos (Nat.cast_pos.mpr hscale)
  rw [← mul_lt_mul_iff_left₀ hpos, hpoint, magnitudeAt_add_mul, Nat.cast_lt]

theorem lt_add_iff_scaled (index index' : ℕ) :
    2 * amount < magnitudeAt index + magnitudeAt index' ↔
      point < (units index + units index') * scale := by
  have hpos : (0 : ℚ) < one * scale := mul_pos cast_one_pos (Nat.cast_pos.mpr hscale)
  rw [← mul_lt_mul_iff_left₀ hpos, hpoint, magnitudeAt_add_mul, Nat.cast_lt]

theorem add_le_iff_scaled (index index' : ℕ) :
    magnitudeAt index + magnitudeAt index' ≤ 2 * amount ↔
      (units index + units index') * scale ≤ point := by
  rw [← not_lt, lt_add_iff_scaled hscale hpoint, not_lt]

theorem le_add_iff_scaled (index index' : ℕ) :
    2 * amount ≤ magnitudeAt index + magnitudeAt index' ↔
      point ≤ (units index + units index') * scale := by
  rw [← not_lt, add_lt_iff_scaled hscale hpoint, not_lt]

end Scaled

theorem two_mul_div_mul (num : ℕ) {den : ℕ} (hden : 0 < den) :
    2 * ((num : ℚ) / den) * (one * den) = (2 * (num * one) : ℕ) := by
  have hne : (den : ℚ) ≠ 0 := Nat.cast_ne_zero.mpr hden.ne'
  field_simp
  push_cast
  ring

/-- A quotient lies from the magnitude found below it to the next. -/
theorem magnitudeAt_indexBelow (num : ℕ) {den : ℕ} (hden : 0 < den) :
    magnitudeAt (indexBelow (num * one / den)) ≤ num / den ∧
      (num : ℚ) / den < magnitudeAt (indexBelow (num * one / den) + 1) := by
  have hle := units_indexBelow_le (num * one / den)
  have hlt := lt_units_indexBelow_succ (num * one / den)
  rw [Nat.le_div_iff_mul_le hden] at hle
  rw [Nat.div_lt_iff_lt_mul hden] at hlt
  generalize indexBelow (num * one / den) = below at hle hlt ⊢
  -- A magnitude is the middle from itself to itself.
  have hpoint := two_mul_div_mul num hden
  have hlow := (add_le_iff_scaled hden hpoint below below).mpr (by linarith)
  have hhigh := (lt_add_iff_scaled hden hpoint (below + 1) (below + 1)).mpr (by linarith)
  exact ⟨by linarith, by linarith⟩

/-- **The nearest index is found.** -/
theorem isBetweenMiddles_nearest (num : ℕ) {den : ℕ} (hden : 0 < den) :
    IsBetweenMiddles (nearest num den) (num / den) := by
  have hpoint := two_mul_div_mul num hden
  obtain ⟨hle, hlt⟩ := magnitudeAt_indexBelow num hden
  unfold nearest
  generalize indexBelow (num * one / den) = below at hle hlt ⊢
  dsimp only
  rw [Nat.mul_comm den]
  generalize (num : ℚ) / den = amount at hle hlt hpoint ⊢
  -- The middles on the far sides are out of reach.
  have hlower : ∀ before, below = before + 1 →
      magnitudeAt before + magnitudeAt below < 2 * amount := by
    rintro before rfl
    have := magnitudeAt_strictMono (Nat.lt_succ_self before)
    linarith
  have hupper : 2 * amount < magnitudeAt (below + 1) + magnitudeAt (below + 1 + 1) := by
    have := magnitudeAt_strictMono (Nat.lt_succ_self (below + 1))
    linarith
  have hbefore : ∀ before, below + 1 = before + 1 → before = below :=
    fun before h => (Nat.succ.inj h).symm
  split_ifs with hbelow habove heven
  · have hless := (lt_add_iff_scaled hden hpoint _ _).mpr hbelow
    exact ⟨fun before h => .inl (hlower before h), .inl hless⟩
  · have hmore := (add_lt_iff_scaled hden hpoint _ _).mpr habove
    exact ⟨fun before h => .inl (hbefore before h ▸ hmore), .inl hupper⟩
  · have hnotMore := (le_add_iff_scaled hden hpoint _ _).mpr (not_lt.mp habove)
    have hnotLess := (add_le_iff_scaled hden hpoint _ _).mpr (not_lt.mp hbelow)
    have htie := le_antisymm hnotMore hnotLess
    exact ⟨fun before h => .inl (hlower before h), .inr ⟨heven, htie⟩⟩
  · have hnotMore := (le_add_iff_scaled hden hpoint _ _).mpr (not_lt.mp habove)
    have hnotLess := (add_le_iff_scaled hden hpoint _ _).mpr (not_lt.mp hbelow)
    have htie := le_antisymm hnotLess hnotMore
    exact ⟨fun before h => .inr ⟨by omega, hbefore before h ▸ htie⟩, .inl hupper⟩

end Binary64

/-! ## Decimal numbers -/

namespace Decimal

open Binary64

/-- The magnitude of a decimal number. -/
def amount (d : Decimal) : ℚ := d.digits * 10 ^ d.exponent

theorem ten_zpow_eq_div (exponent : ℤ) :
    (10 : ℚ) ^ exponent = 10 ^ exponent.toNat / 10 ^ (-exponent).toNat := by
  rw [← zpow_natCast, ← zpow_natCast, ← zpow_sub₀ (by norm_num)]
  congr 1
  omega

/-- A decimal number as the quotient that is rounded. -/
theorem mul_ten_zpow_eq_div (digits : ℕ) (exponent : ℤ) :
    (digits : ℚ) * 10 ^ exponent =
      (digits * Nat.pow 10 exponent.toNat : ℕ) / (Nat.pow 10 (-exponent).toNat : ℕ) := by
  rw [ten_zpow_eq_div, Nat.pow_eq, Nat.pow_eq]
  push_cast
  ring

/-- A number with a large exponent overflows. -/
theorem overflow_le_of_le {digits : ℕ} (hdigits : digits ≠ 0) {exponent : ℤ}
    (h : 400 ≤ exponent) : overflow ≤ (digits : ℚ) * 10 ^ exponent := by
  have hone : (1 : ℚ) ≤ digits := Nat.one_le_cast.mpr (Nat.one_le_iff_ne_zero.mpr hdigits)
  have hpow : (10 : ℚ) ^ 400 ≤ 10 ^ exponent := by
    rw [← zpow_natCast]
    exact zpow_le_zpow_right₀ (by norm_num) h
  calc overflow ≤ 2 ^ 1024 := by
        rw [overflow]
        exact sub_le_self _ (by positivity)
    _ ≤ 2 ^ (3 * 400) := pow_le_pow_right₀ (by norm_num) (by norm_num)
    _ = 8 ^ 400 := by rw [pow_mul]; norm_num
    _ ≤ 10 ^ 400 := pow_le_pow_left₀ (by norm_num) (by norm_num) 400
    _ ≤ 10 ^ exponent := hpow
    _ ≤ digits * 10 ^ exponent := le_mul_of_one_le_left (by positivity) hone

/-- A number far below the least magnitude is nearest to zero. -/
theorem lt_of_add_log2_le {digits : ℕ} {exponent : ℤ}
    (h : exponent + digits.log2 + 1080 ≤ 0) :
    2 * ((digits : ℚ) * 10 ^ exponent) < magnitudeAt 0 + magnitudeAt 1 := by
  obtain ⟨n, rfl⟩ := Int.exists_eq_neg_ofNat (show exponent ≤ 0 by omega)
  have hdigits : (digits : ℚ) < 2 ^ (digits.log2 + 1) := by
    exact_mod_cast Nat.lt_log2_self (n := digits)
  have hpow : (10 : ℚ) ^ (-(n : ℤ)) ≤ 2 ^ (-(n : ℤ)) := by
    rw [zpow_neg, zpow_neg, zpow_natCast, zpow_natCast]
    exact inv_anti₀ (by positivity) (pow_le_pow_left₀ (by norm_num) (by norm_num) n)
  have hleast : magnitudeAt 0 + magnitudeAt 1 = 2 ^ (-1074 : ℤ) := by
    rw [magnitudeAt_zero, zero_add, magnitudeAt, units_of_lt (by decide), cast_one, Nat.cast_one,
      one_div, zpow_neg, zpow_ofNat]
  calc 2 * ((digits : ℚ) * 10 ^ (-(n : ℤ)))
      < 2 * (2 ^ (digits.log2 + 1) * 2 ^ (-(n : ℤ))) :=
        mul_lt_mul_of_pos_left (mul_lt_mul hdigits hpow (by positivity) (by positivity)) two_pos
    _ = 2 ^ ((digits.log2 : ℤ) + 2 - n) := by
        rw [← zpow_natCast, ← zpow_add₀ two_ne_zero, ← zpow_one_add₀ two_ne_zero]
        congr 1
        push_cast
        ring
    _ ≤ 2 ^ (-1074 : ℤ) := zpow_le_zpow_right₀ one_le_two (by omega)
    _ = magnitudeAt 0 + magnitudeAt 1 := hleast.symm

theorem roundsTo_magnitude (negative : Bool) (digits : ℕ) (exponent : ℤ) :
    RoundsTo negative (digits * 10 ^ exponent) ⟨negative, magnitude digits exponent⟩ := by
  unfold magnitude
  split_ifs with hzero hlarge hsmall
  · rw [hzero, Nat.cast_zero, zero_mul]
    exact isBetweenMiddles_zero.roundsTo negative
  · exact .infinite (overflow_le_of_le hzero hlarge)
  · exact (isBetweenMiddles_of_lt (lt_of_add_log2_le hsmall)).roundsTo negative
  · rw [mul_ten_zpow_eq_div]
    exact (isBetweenMiddles_nearest _ (Nat.pow_pos (by decide))).roundsTo negative

/-- **A decimal number is rounded correctly.** -/
theorem roundsTo_toBinary64 (d : Decimal) : RoundsTo d.negative d.amount d.toBinary64 :=
  roundsTo_magnitude d.negative d.digits d.exponent

end Decimal

end TypedTriples
