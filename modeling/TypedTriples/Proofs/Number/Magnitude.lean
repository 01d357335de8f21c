import Mathlib
import TypedTriples.Number.Binary64

/-!
# The magnitudes of double precision

A finite magnitude of double precision is a significand of at most 53 bits
times a power of two. `Binary64.units` numbers these in increasing order and
without a gap, so that the index of a magnitude stands for it, and its parity
for that of the significand.

Main definitions:
* `Binary64.Represents`: a significand and an exponent for a magnitude.
* `Binary64.IsMagnitude`: the finite magnitudes.
* `Binary64.HasEvenSignificand`: those that a tie goes to.

Main results:
* `units_strictMono`: the magnitudes in order.
* `isMagnitude_iff`: the indices below that of infinity have all the finite
  magnitudes.
* `hasEvenSignificand_iff`: a magnitude has an even significand when its index
  is even.
* `units_indexBelow_le`, `lt_units_indexBelow_succ`: the index below an amount.
-/

namespace TypedTriples.Binary64

/-! ## Specification -/

/-- A rational number is a significand of at most 53 bits times a power of two
    in the range of double precision, and the significand has all 53 bits
    unless the power is the least. -/
structure Represents (significand : ℕ) (power : ℤ) (q : ℚ) : Prop where
  significand_lt : significand < 2 ^ 53
  le_power : -1074 ≤ power
  power_le : power ≤ 971
  normal : power = -1074 ∨ 2 ^ 52 ≤ significand
  eq : q = significand * 2 ^ power

/-- The finite magnitudes: whole numbers of at most 53 bits times a power of two
    from `2 ^ -1074` to `2 ^ 971`. -/
def IsMagnitude (q : ℚ) : Prop :=
  ∃ (significand : ℕ) (power : ℤ), significand < 2 ^ 53 ∧ -1074 ≤ power ∧ power ≤ 971 ∧
    q = significand * 2 ^ power

/-- A finite magnitude with an even significand. -/
def HasEvenSignificand (q : ℚ) : Prop :=
  ∃ significand power, Represents significand power q ∧ Even significand

/-- The magnitude at an index. -/
def magnitudeAt (index : ℕ) : ℚ := units index / one

/-! ## Constants -/

theorem binade_eq : binade = 2 ^ 52 := rfl

theorem two_pow_pos (n : ℕ) : 0 < Nat.pow 2 n := Nat.two_pow_pos n

theorem cast_two_pow (n : ℕ) : ((Nat.pow 2 n : ℕ) : ℚ) = 2 ^ n := by
  rw [Nat.pow_eq, Nat.cast_pow, Nat.cast_ofNat]

theorem binade_pos : 0 < binade := two_pow_pos 52

theorem even_binade : binade % 2 = 0 := rfl

theorem one_pos : 0 < one := by
  unfold one
  apply two_pow_pos

theorem cast_one : (one : ℚ) = 2 ^ 1074 := by
  unfold one
  apply cast_two_pow

theorem cast_one_pos : (0 : ℚ) < one := Nat.cast_pos.mpr one_pos

/-! ## The order of the magnitudes -/

theorem units_of_lt {index : ℕ} (h : index < binade) : units index = index := if_pos h

theorem units_of_le {index : ℕ} (h : binade ≤ index) :
    units index = (binade + index % binade) * 2 ^ (index / binade - 1) := if_neg (Nat.not_lt.mpr h)

/-- The magnitudes of one binade, and all below with the same unit. -/
theorem units_add {significand : ℕ} (hlt : significand < 2 * binade) {shift : ℕ}
    (hnormal : shift = 0 ∨ binade ≤ significand) :
    units (shift * binade + significand) = significand * 2 ^ shift := by
  by_cases hsmall : significand < binade
  · obtain rfl : shift = 0 := hnormal.resolve_right (Nat.not_le.mpr hsmall)
    rw [Nat.zero_mul, Nat.zero_add, units_of_lt hsmall, Nat.pow_zero, Nat.mul_one]
  · obtain ⟨rest, rfl⟩ := Nat.exists_eq_add_of_le (Nat.not_lt.mp hsmall)
    have hrest : rest < binade := by omega
    have hindex : shift * binade + (binade + rest) = binade * (shift + 1) + rest := by ring
    have hle : binade ≤ binade * (shift + 1) + rest := by
      rw [Nat.mul_add, Nat.mul_one]
      omega
    rw [hindex, units_of_le hle, Nat.mul_add_mod, Nat.mod_eq_of_lt hrest,
      Nat.mul_add_div binade_pos, Nat.div_eq_of_lt hrest, Nat.add_zero, Nat.add_sub_cancel]

/-- From a magnitude to the next it is one unit of the binade. -/
theorem units_add_succ {significand : ℕ} (hlt : significand < 2 * binade) {shift : ℕ}
    (hnormal : shift = 0 ∨ binade ≤ significand) :
    units (shift * binade + significand + 1) = (significand + 1) * 2 ^ shift := by
  by_cases hlast : significand + 1 < 2 * binade
  · rw [Nat.add_assoc]
    exact units_add hlast (hnormal.imp_right Nat.le_succ_of_le)
  · -- the next binade starts, with a unit twice as large
    have hsignificand : significand + 1 = 2 * binade := by omega
    have hnext : shift * binade + significand + 1 = (shift + 1) * binade + binade := by
      rw [Nat.add_mul, Nat.one_mul]
      omega
    have hbinade : binade < 2 * binade := by
      have := binade_pos
      omega
    rw [hnext, units_add hbinade (.inr le_rfl), hsignificand, Nat.pow_succ]
    ring

/-- An index is a number of binades and a significand. -/
theorem exists_eq_shift (index : ℕ) :
    ∃ shift significand, index = shift * binade + significand ∧ significand < 2 * binade ∧
      (shift = 0 ∨ binade ≤ significand) := by
  have hdiv := Nat.div_add_mod' index binade
  have hmod := Nat.mod_lt index binade_pos
  cases hbinades : index / binade with
  | zero =>
    rw [hbinades] at hdiv
    exact ⟨0, index, by omega, by omega, .inl rfl⟩
  | succ shift =>
    rw [hbinades, Nat.add_mul, Nat.one_mul] at hdiv
    exact ⟨shift, binade + index % binade, by omega, by omega, .inr (by omega)⟩

theorem units_strictMono : StrictMono units :=
  strictMono_nat_of_lt_succ fun index => by
    obtain ⟨shift, significand, rfl, hlt, hnormal⟩ := exists_eq_shift index
    rw [units_add hlt hnormal, units_add_succ hlt hnormal, Nat.add_mul, Nat.one_mul]
    exact Nat.lt_add_of_pos_right (Nat.two_pow_pos shift)

theorem units_zero : units 0 = 0 := units_of_lt binade_pos

theorem magnitudeAt_strictMono : StrictMono magnitudeAt := fun _ _ h =>
  div_lt_div_of_pos_right (Nat.cast_lt.mpr (units_strictMono h)) cast_one_pos

theorem magnitudeAt_zero : magnitudeAt 0 = 0 := by
  rw [magnitudeAt, units_zero, Nat.cast_zero, zero_div]

/-! ## Which numbers are magnitudes -/

theorem mul_two_pow_div (significand shift n : ℕ) :
    ((significand * 2 ^ shift : ℕ) : ℚ) / 2 ^ n = significand * 2 ^ ((shift : ℤ) - n) := by
  rw [zpow_sub₀ two_ne_zero, zpow_natCast, zpow_natCast, Nat.cast_mul, Nat.cast_pow, Nat.cast_ofNat,
    mul_div_assoc]

theorem magnitudeAt_of_units_eq {index significand shift : ℕ}
    (h : units index = significand * 2 ^ shift) :
    magnitudeAt index = significand * 2 ^ ((shift : ℤ) - 1074) := by
  rw [magnitudeAt, cast_one, h]
  apply mul_two_pow_div

/-- The significand and the power of the magnitude at an index. -/
theorem represents_magnitudeAt {index : ℕ} (h : index < infinity) :
    ∃ significand shift : ℕ, index = shift * binade + significand ∧
      Represents significand (shift - 1074) (magnitudeAt index) := by
  obtain ⟨shift, significand, rfl, hlt, hnormal⟩ := exists_eq_shift index
  have hshift : shift ≤ 2045 := by
    rcases hnormal with rfl | hfull
    · exact Nat.zero_le 2045
    · have hbinades : (shift + 1) * binade < 2047 * binade := by
        rw [infinity] at h
        rw [Nat.add_mul, Nat.one_mul]
        omega
      have := Nat.lt_of_mul_lt_mul_right hbinades
      omega
  refine ⟨significand, shift, rfl, hlt, by omega, by omega, ?_,
    magnitudeAt_of_units_eq (units_add hlt hnormal)⟩
  exact hnormal.imp_left fun hzero => by rw [hzero, Nat.cast_zero, zero_sub]

/-- A significand can be shifted until it has all bits or the power is the least. -/
theorem exists_units_eq {shift : ℕ} (hshift : shift ≤ 2045) {significand : ℕ}
    (hlt : significand < 2 * binade) :
    ∃ index < infinity, units index = significand * 2 ^ shift := by
  induction shift generalizing significand with
  | zero =>
    refine ⟨0 * binade + significand, ?_, units_add hlt (.inl rfl)⟩
    rw [infinity]
    omega
  | succ shift ih =>
    by_cases hfull : binade ≤ significand
    · refine ⟨(shift + 1) * binade + significand, ?_, units_add hlt (.inr hfull)⟩
      have hle : (shift + 1) * binade ≤ 2045 * binade := Nat.mul_le_mul_right _ hshift
      rw [infinity]
      omega
    · have hdouble : 2 * significand < 2 * binade := by omega
      obtain ⟨index, hindex, hunits⟩ := ih (Nat.le_of_succ_le hshift) hdouble
      exact ⟨index, hindex, by rw [hunits]; ring⟩

/-- The finite magnitudes are those at the indices below that of infinity. -/
theorem isMagnitude_iff {q : ℚ} : IsMagnitude q ↔ ∃ index < infinity, q = magnitudeAt index := by
  constructor
  · rintro ⟨significand, power, hlt, hleast, hgreatest, rfl⟩
    obtain ⟨shift, hshift⟩ := Int.eq_ofNat_of_zero_le (show 0 ≤ power + 1074 by omega)
    obtain ⟨index, hindex, hunits⟩ := exists_units_eq (show shift ≤ 2045 by omega) hlt
    refine ⟨index, hindex, ?_⟩
    rw [magnitudeAt_of_units_eq hunits, ← hshift, add_sub_cancel_right]
  · rintro ⟨index, hindex, rfl⟩
    obtain ⟨significand, shift, -, hrep⟩ := represents_magnitudeAt hindex
    exact ⟨_, _, hrep.significand_lt, hrep.le_power, hrep.power_le, hrep.eq⟩

/-- A magnitude has an even significand when its index is even. -/
theorem hasEvenSignificand_iff {index : ℕ} (h : index < infinity) :
    HasEvenSignificand (magnitudeAt index) ↔ index % 2 = 0 := by
  constructor
  · rintro ⟨significand, power, hrep, heven⟩
    obtain ⟨shift, hshift⟩ := Int.eq_ofNat_of_zero_le
      (show 0 ≤ power + 1074 by have := hrep.le_power; omega)
    have hnormal : shift = 0 ∨ binade ≤ significand := hrep.normal.imp_left fun hpower => by omega
    have hunits := units_add hrep.significand_lt hnormal
    have hsame : magnitudeAt index = magnitudeAt (shift * binade + significand) := by
      rw [magnitudeAt_of_units_eq hunits, ← hshift, add_sub_cancel_right]
      exact hrep.eq
    rw [magnitudeAt_strictMono.injective hsame, Nat.add_mod, Nat.mul_mod, even_binade,
      Nat.mul_zero, Nat.zero_mod, Nat.zero_add, Nat.mod_mod, ← Nat.even_iff]
    exact heven
  · intro heven
    obtain ⟨significand, shift, hindex, hrep⟩ := represents_magnitudeAt h
    refine ⟨significand, _, hrep, ?_⟩
    rw [hindex, Nat.add_mod, Nat.mul_mod, even_binade, Nat.mul_zero, Nat.zero_mod, Nat.zero_add,
      Nat.mod_mod] at heven
    exact Nat.even_iff.mpr heven

/-! ## The index below an amount -/

/-- The leading bits of an amount: at most 53, and all 53 if any bits follow. -/
theorem leadingBits (amount : ℕ) :
    amount / 2 ^ (amount.log2 - 52) < 2 * binade ∧
      (amount.log2 - 52 = 0 ∨ binade ≤ amount / 2 ^ (amount.log2 - 52)) := by
  constructor
  · have hlt : amount < 2 ^ (amount.log2 + 1) := Nat.lt_log2_self
    have hle : 2 ^ (amount.log2 + 1) ≤ 2 ^ (53 + (amount.log2 - 52)) :=
      Nat.pow_le_pow_right two_pos (by omega)
    rw [Nat.div_lt_iff_lt_mul (Nat.two_pow_pos _)]
    calc amount < 2 ^ (53 + (amount.log2 - 52)) := hlt.trans_le hle
      _ = 2 * binade * 2 ^ (amount.log2 - 52) := by rw [Nat.pow_add, binade_eq, ← Nat.pow_succ']
  · by_cases hsmall : amount.log2 ≤ 52
    · exact .inl (Nat.sub_eq_zero_of_le hsmall)
    · have hne : amount ≠ 0 := by
        rintro rfl
        exact hsmall (by decide)
      have hbits : 52 + (amount.log2 - 52) = amount.log2 := by omega
      refine .inr ?_
      rw [Nat.le_div_iff_mul_le (Nat.two_pow_pos _), binade_eq, ← Nat.pow_add, hbits]
      exact Nat.log2_self_le hne

theorem units_indexBelow (amount : ℕ) :
    units (indexBelow amount) =
      amount / 2 ^ (amount.log2 - 52) * 2 ^ (amount.log2 - 52) :=
  units_add (leadingBits amount).1 (leadingBits amount).2

theorem units_indexBelow_le (amount : ℕ) : units (indexBelow amount) ≤ amount := by
  rw [units_indexBelow]
  exact Nat.div_mul_le_self _ _

theorem lt_units_indexBelow_succ (amount : ℕ) : amount < units (indexBelow amount + 1) := by
  have hnext : units (indexBelow amount + 1) =
      (amount / 2 ^ (amount.log2 - 52) + 1) * 2 ^ (amount.log2 - 52) :=
    units_add_succ (leadingBits amount).1 (leadingBits amount).2
  rw [hnext, ← Nat.div_lt_iff_lt_mul (Nat.two_pow_pos _)]
  exact Nat.lt_succ_self _

end TypedTriples.Binary64
