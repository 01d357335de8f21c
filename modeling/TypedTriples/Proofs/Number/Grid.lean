import Mathlib
import TypedTriples.Number.Shortest
import TypedTriples.Proofs.Number.Interval

/-!
# Grids of decimals

The multiples of a power of ten are a grid. What a grid has for a magnitude is
one of the two points around it, and that is enough: if any point of the grid
rounds to the magnitude, then one of these two does. So the grid of the shortest
decimal is the coarsest with a point that rounds to the magnitude, and its
digits do not end in zero.

Main definitions:
* `Binary64.scale`, `Binary64.step`: the whole numbers that a grid is computed
  with.
* `Binary64.passes`: the test of a point.
* `Binary64.decimalAt`: the number that is written for a magnitude.

Main results:
* `passes_iff`: the points that pass are those that round to the magnitude.
* `exists_onGrid?`: a grid with such a point is not passed over.
* `isBetweenMiddles_shortest`, `power_le_shortest`: the shortest decimal rounds
  to the magnitude, and no grid coarser than its own has a point that does.
-/

namespace TypedTriples.Binary64

variable {index digits : ℕ} {power : ℤ}

/-! ## Points on a grid -/

/-- What makes the multiples of a power of ten whole. -/
def scale (power : ℤ) : ℕ := Nat.pow 10 (-power).toNat

/-- Twice a power of ten, in scaled units. -/
def step (power : ℤ) : ℕ := 2 * one * Nat.pow 10 power.toNat

/-- Whether a point on a grid passes the test for a magnitude. -/
def passes (index : ℕ) (power : ℤ) (digits : ℕ) : Bool :=
  readsBack index ((units (index - 1) + units index) * scale power)
    ((units index + units (index + 1)) * scale power) (digits * step power)

/-- The last point on a grid that is not above a magnitude. -/
def pointBelow (index : ℕ) (power : ℤ) : ℕ := 2 * units index * scale power / step power

theorem scale_pos (power : ℤ) : 0 < scale power := Nat.pow_pos (by decide)

theorem step_pos (power : ℤ) : 0 < step power :=
  Nat.mul_pos (Nat.mul_pos two_pos one_pos) (Nat.pow_pos (by decide))

theorem two_mul_point_mul (digits : ℕ) (power : ℤ) :
    2 * ((digits : ℚ) * 10 ^ power) * (one * scale power) = (digits * step power : ℕ) := by
  have hten : (10 : ℚ) ^ (-power).toNat ≠ 0 := by positivity
  rw [Decimal.ten_zpow_eq_div, scale, step, Nat.pow_eq, Nat.pow_eq]
  generalize one = unit
  push_cast
  field_simp

/-- The point below a magnitude, and the one behind it. -/
theorem pointBelow_bounds (index : ℕ) (power : ℤ) :
    pointBelow index power * (10 : ℚ) ^ power ≤ magnitudeAt index ∧
      magnitudeAt index < (pointBelow index power + 1 : ℕ) * (10 : ℚ) ^ power := by
  have hscale := scale_pos power
  have hle : pointBelow index power * step power ≤ 2 * units index * scale power :=
    Nat.div_mul_le_self _ _
  have hlt : 2 * units index * scale power < (pointBelow index power + 1) * step power :=
    Nat.lt_mul_of_div_lt (Nat.lt_succ_self _) (step_pos power)
  rw [Nat.two_mul] at hle hlt
  -- A magnitude is the middle from itself to itself.
  have hbelow := (le_add_iff_scaled hscale (two_mul_point_mul _ power) index index).mpr hle
  have habove := (add_lt_iff_scaled hscale (two_mul_point_mul _ power) index index).mpr hlt
  exact ⟨by linarith, by linarith⟩

/-- **The points that pass** are those that lie between the middles. -/
theorem passes_iff (hindex : 0 < index) :
    passes index power digits = true ↔ IsBetweenMiddles index (digits * 10 ^ power) := by
  obtain ⟨before, rfl⟩ := Nat.exists_eq_add_one.mpr hindex
  have hscale := scale_pos power
  have hpoint := two_mul_point_mul digits power
  rw [passes, Nat.add_sub_cancel, readsBack]
  split_ifs with heven
  · simp only [Bool.and_eq_true, decide_eq_true_eq]
    rw [← add_le_iff_scaled hscale hpoint, ← le_add_iff_scaled hscale hpoint]
    constructor
    · rintro ⟨hlower, hupper⟩
      refine ⟨fun other hother => ?_, hupper.lt_or_eq.imp_right fun htie => ⟨heven, htie⟩⟩
      obtain rfl := Nat.succ.inj hother
      exact hlower.lt_or_eq.imp_right fun htie => ⟨heven, htie⟩
    · exact fun h => ⟨h.add_le, h.le_add⟩
  · simp only [Bool.and_eq_true, decide_eq_true_eq]
    rw [← add_lt_iff_scaled hscale hpoint, ← lt_add_iff_scaled hscale hpoint]
    constructor
    · rintro ⟨hlower, hupper⟩
      refine ⟨fun other hother => ?_, .inl hupper⟩
      obtain rfl := Nat.succ.inj hother
      exact .inl hlower
    · exact fun h => ⟨(h.lower before rfl).resolve_right fun htie => heven htie.1,
        h.upper.resolve_right fun htie => heven htie.1⟩

/-! ## What a grid has for a magnitude -/

theorem passes_of_onGrid? (h : onGrid? index power = some digits) :
    passes index power digits = true := by
  unfold onGrid? at h
  dsimp only at h
  split at h
  · rename_i hbelow habove
    split_ifs at h <;> obtain rfl := Option.some.inj h
    · exact hbelow
    · exact habove
  · rename_i hbelow habove
    obtain rfl := Option.some.inj h
    exact hbelow
  · rename_i hbelow habove
    obtain rfl := Option.some.inj h
    exact habove
  · cases h

theorem exists_onGrid?_of_passes (h : passes index power (pointBelow index power) = true ∨
    passes index power (pointBelow index power + 1) = true) :
    ∃ digits, onGrid? index power = some digits := by
  unfold passes pointBelow scale step at h
  unfold onGrid?
  dsimp only
  split
  · exact ⟨_, (apply_ite some _ _ _).symm⟩
  · exact ⟨_, rfl⟩
  · exact ⟨_, rfl⟩
  · rename_i hbelow habove
    rw [hbelow, habove] at h
    exact absurd h (by decide)

/-- **What a grid has for a magnitude rounds to it.** -/
theorem isBetweenMiddles_of_onGrid? (hindex : 0 < index) (h : onGrid? index power = some digits) :
    IsBetweenMiddles index (digits * 10 ^ power) :=
  (passes_iff hindex).mp (passes_of_onGrid? h)

/-- **A grid with a point that rounds to a magnitude has one for it**: the point below
    the magnitude or the one behind it is no farther from the magnitude, on the same
    side. -/
theorem exists_onGrid? (hindex : 0 < index) (h : IsBetweenMiddles index (digits * 10 ^ power)) :
    ∃ found, onGrid? index power = some found := by
  obtain ⟨hbelow, habove⟩ := pointBelow_bounds index power
  have hmagnitude := isBetweenMiddles_magnitudeAt index
  have hten : (0 : ℚ) ≤ 10 ^ power := by positivity
  apply exists_onGrid?_of_passes
  rw [passes_iff hindex, passes_iff hindex]
  rcases Nat.lt_or_ge (pointBelow index power) digits with hlt | hle
  · have hcast : ((pointBelow index power + 1 : ℕ) : ℚ) ≤ digits := Nat.cast_le.mpr hlt
    exact .inr (hmagnitude.convex h habove.le (mul_le_mul_of_nonneg_right hcast hten))
  · have hcast : (digits : ℚ) ≤ pointBelow index power := Nat.cast_le.mpr hle
    exact .inl (h.convex hmagnitude (mul_le_mul_of_nonneg_right hcast hten) hbelow)

/-! ## The grids are fine enough -/

theorem readsBack_of_lt {low high point : ℕ} (hlow : low < point) (hhigh : point < high) :
    readsBack index low high point = true := by
  unfold readsBack
  split_ifs
  · simp [hlow.le, hhigh.le]
  · simp [hlow, hhigh]

/-- On a grid with a step no larger than the scale, the point below a magnitude
    stands for it. -/
theorem passes_pointBelow (hindex : 0 < index) (hfine : step power ≤ scale power) :
    passes index power (pointBelow index power) = true := by
  have hscale := scale_pos power
  have hbefore : units (index - 1) + 1 ≤ units index :=
    units_strictMono (Nat.sub_lt hindex Nat.one_pos)
  have hnext : units index < units (index + 1) := units_strictMono (Nat.lt_succ_self index)
  have hdiv := Nat.div_add_mod' (2 * units index * scale power) (step power)
  have hmod := Nat.mod_lt (2 * units index * scale power) (step_pos power)
  refine readsBack_of_lt ?_ ?_
  · have hgap : (units (index - 1) + units index) * scale power + scale power ≤
        2 * units index * scale power := by
      rw [← Nat.succ_mul]
      exact Nat.mul_le_mul_right _ (by omega)
    rw [pointBelow]
    omega
  · calc pointBelow index power * step power
        ≤ 2 * units index * scale power := Nat.div_mul_le_self _ _
      _ < (units index + units (index + 1)) * scale power :=
        Nat.mul_lt_mul_of_pos_right (by omega) hscale

theorem step_le_scale : step (-330) ≤ scale (-330) := by decide +kernel

/-! ## The coarsest grid -/

theorem mul_ten_zpow_eq {power' : ℤ} (h : power ≤ power') (digits : ℕ) :
    (digits : ℚ) * 10 ^ power' = (digits * 10 ^ (power' - power).toNat : ℕ) * 10 ^ power := by
  have hten : (10 : ℚ) ^ power' = 10 ^ (power' - power).toNat * 10 ^ power := by
    rw [← zpow_natCast, ← zpow_add₀ (by norm_num)]
    congr 1
    omega
  rw [hten]
  push_cast
  ring

theorem mem_gridPowers_iff : power ∈ gridPowers ↔ -330 ≤ power ∧ power ≤ 309 := by
  rw [gridPowers, List.mem_map]
  constructor
  · rintro ⟨place, hplace, rfl⟩
    have := List.mem_range.mp hplace
    omega
  · rintro ⟨hle, hge⟩
    exact ⟨(309 - power).toNat, List.mem_range.mpr (by omega), by omega⟩

theorem pairwise_gridPowers : gridPowers.Pairwise (· > ·) := by
  refine List.pairwise_lt_range.map _ fun place place' hlt => ?_
  show (309 : ℤ) - place > 309 - place'
  omega

/-- The shortest decimal is on a grid, and those before it have nothing for the
    magnitude. -/
theorem exists_shortest (hindex : 0 < index) :
    ∃ before after, gridPowers = before ++ (shortest index).2 :: after ∧
      onGrid? index (shortest index).2 = some (shortest index).1 ∧
      ∀ power ∈ before, onGrid? index power = none := by
  obtain ⟨finest, hfinest⟩ :=
    exists_onGrid?_of_passes (.inl (passes_pointBelow hindex step_le_scale))
  have hsome : (gridPowers.findSome? fun power =>
      (onGrid? index power).map fun digits => (digits, power)).isSome := by
    rw [List.findSome?_isSome_iff]
    exact ⟨-330, mem_gridPowers_iff.mpr (by decide), by rw [hfinest]; rfl⟩
  obtain ⟨found, hfound⟩ := Option.isSome_iff_exists.mp hsome
  obtain ⟨before, power, after, hsplit, hpoint, hnone⟩ := List.findSome?_eq_some_iff.mp hfound
  obtain ⟨digits, hgrid, rfl⟩ := Option.map_eq_some_iff.mp hpoint
  rw [shortest, hfound]
  exact ⟨before, after, hsplit, hgrid, fun power hmem => Option.map_eq_none_iff.mp (hnone _ hmem)⟩

theorem shortest_mem_gridPowers (hindex : 0 < index) : (shortest index).2 ∈ gridPowers := by
  obtain ⟨before, after, hsplit, -, -⟩ := exists_shortest hindex
  rw [hsplit]
  exact List.mem_append_right before List.mem_cons_self

theorem isBetweenMiddles_shortest (hindex : 0 < index) :
    IsBetweenMiddles index ((shortest index).1 * 10 ^ (shortest index).2) := by
  obtain ⟨before, after, -, hgrid, -⟩ := exists_shortest hindex
  exact isBetweenMiddles_of_onGrid? hindex hgrid

/-- **The shortest decimal is on the coarsest grid** that has a point for the
    magnitude. -/
theorem power_le_shortest (hindex : 0 < index) (hpower : power ∈ gridPowers)
    (h : IsBetweenMiddles index (digits * 10 ^ power)) : power ≤ (shortest index).2 := by
  obtain ⟨before, after, hsplit, -, hnone⟩ := exists_shortest hindex
  have hsorted := pairwise_gridPowers
  rw [hsplit] at hpower hsorted
  rcases List.mem_append.mp hpower with hbefore | hmem
  · obtain ⟨found, hfound⟩ := exists_onGrid? hindex h
    rw [hnone power hbefore] at hfound
    cases hfound
  · rcases List.mem_cons.mp hmem with hsame | hafter
    · exact hsame.le
    · have hrest := (List.pairwise_append.mp hsorted).2.1
      exact (List.rel_of_pairwise_cons hrest hafter).le

theorem shortest_pos (hindex : 0 < index) : 0 < (shortest index).1 := by
  have hpos := (isBetweenMiddles_shortest hindex).pos hindex
  rw [Nat.pos_iff_ne_zero]
  intro hzero
  rw [hzero, Nat.cast_zero, zero_mul] at hpos
  exact lt_irrefl _ hpos

/-- Digits behind the point do not end in zero, or they would stand on a coarser grid. -/
theorem shortest_mod_ten_ne (hindex : 0 < index) (hpower : (shortest index).2 < 0) :
    (shortest index).1 % 10 ≠ 0 := by
  intro hzero
  have hbetween := isBetweenMiddles_shortest hindex
  have hmem := mem_gridPowers_iff.mp (shortest_mem_gridPowers hindex)
  have hcoarser : ((shortest index).1 : ℚ) * 10 ^ (shortest index).2 =
      ((shortest index).1 / 10 : ℕ) * 10 ^ ((shortest index).2 + 1) := by
    rw [mul_ten_zpow_eq (Int.le_add_one le_rfl), add_sub_cancel_left, Int.toNat_one, Nat.pow_one,
      Nat.div_mul_cancel (Nat.dvd_of_mod_eq_zero hzero)]
  rw [hcoarser] at hbetween
  have hle := power_le_shortest hindex (mem_gridPowers_iff.mpr (by omega)) hbetween
  omega

/-! ## The number that is written -/

/-- The number that is written for a magnitude. -/
def decimalAt (index : ℕ) : ℚ :=
  if index = 0 then 0 else (shortest index).1 * 10 ^ (shortest index).2

/-- **What is written for a magnitude rounds to it.** -/
theorem isBetweenMiddles_decimalAt (index : ℕ) : IsBetweenMiddles index (decimalAt index) := by
  unfold decimalAt
  split_ifs with hzero
  · rw [hzero]
    exact isBetweenMiddles_zero
  · exact isBetweenMiddles_shortest (Nat.pos_of_ne_zero hzero)

theorem decimalAt_mono : Monotone decimalAt := by
  intro index index' hle
  rcases hle.lt_or_eq with hlt | rfl
  · exact (isBetweenMiddles_decimalAt index).le_of_lt (isBetweenMiddles_decimalAt index') hlt
  · exact le_rfl

end TypedTriples.Binary64
