import Mathlib
import TypedTriples.Proofs.Number.Rounding

/-!
# The numbers that round to a magnitude

The numbers between the middles to the two neighbours of a magnitude are an
interval around it. The intervals of the magnitudes come in the order of their
indices, and where significands have all their bits an interval is narrow: two
of its numbers differ by less than one part in `10 ^ 15`.

Main results:
* `RoundsTo.isBetweenMiddles`: what rounds to a finite double is in its
  interval.
* `IsBetweenMiddles.convex`, `isBetweenMiddles_magnitudeAt`: intervals, each
  with its magnitude.
* `IsBetweenMiddles.le_of_lt`: their order.
* `IsBetweenMiddles.sub_mul_lt`: their width.
-/

namespace TypedTriples.Binary64

variable {index : ℕ} {x y z : ℚ}

/-! ## Numbers that round to one double -/

/-- A number is not above the middle to the next magnitude, or it would be nearer
    to that one. The greatest finite magnitude has infinity for the next. -/
theorem IsNearest.upper (h : IsNearest x (magnitudeAt index)) (hindex : index < infinity)
    (hfinite : x < overflow) : 2 * x < magnitudeAt index + magnitudeAt (index + 1) ∨
      index % 2 = 0 ∧ 2 * x = magnitudeAt index + magnitudeAt (index + 1) := by
  by_cases hlast : infinity = index + 1
  · have hmiddle := magnitudeAt_infinity_add hlast
    rw [hlast] at hmiddle
    exact .inl (by linarith)
  · have hnext : IsMagnitude (magnitudeAt (index + 1)) := isMagnitude_magnitudeAt (by omega)
    have hless := magnitudeAt_strictMono (Nat.lt_succ_self index)
    have hmiddle := (abs_sub_le_iff_le_add hless).mp (h.le _ hnext)
    refine hmiddle.lt_or_eq.imp_right fun htie => ⟨?_, htie⟩
    have hequal := le_antisymm ((abs_sub_le_iff_add_le hless).mpr htie.ge) (h.le _ hnext)
    exact (hasEvenSignificand_iff hindex).mp (h.even_of_eq _ hnext hless.ne' hequal)

theorem IsNearest.lower {before : ℕ} (h : IsNearest x (magnitudeAt (before + 1)))
    (hindex : before + 1 < infinity) : magnitudeAt before + magnitudeAt (before + 1) < 2 * x ∨
      (before + 1) % 2 = 0 ∧ magnitudeAt before + magnitudeAt (before + 1) = 2 * x := by
  have hbefore : IsMagnitude (magnitudeAt before) := isMagnitude_magnitudeAt (by omega)
  have hless := magnitudeAt_strictMono (Nat.lt_succ_self before)
  have hmiddle := (abs_sub_le_iff_add_le hless).mp (h.le _ hbefore)
  refine hmiddle.lt_or_eq.imp_right fun htie => ⟨?_, htie⟩
  have hequal := le_antisymm ((abs_sub_le_iff_le_add hless).mpr htie.ge) (h.le _ hbefore)
  exact (hasEvenSignificand_iff hindex).mp (h.even_of_eq _ hbefore hless.ne hequal)

/-- **What rounds to a finite double is between the middles of its magnitude.** -/
theorem RoundsTo.isBetweenMiddles {negative : Bool} {d : Binary64} (h : RoundsTo negative x d)
    (hfinite : d.index < infinity) : IsBetweenMiddles d.index x := by
  cases h with
  | finite hlt hindex hnearest =>
    refine ⟨fun before hbefore => ?_, hnearest.upper hindex hlt⟩
    subst hbefore
    exact hnearest.lower hindex
  | infinite hle => exact absurd hfinite (lt_irrefl infinity)

/-- Overflow is what rounds to infinity. -/
theorem RoundsTo.index_lt_infinity_iff {negative : Bool} {d : Binary64}
    (h : RoundsTo negative x d) : d.index < infinity ↔ x < overflow := by
  cases h with
  | finite hlt hindex _ => exact iff_of_true hindex hlt
  | infinite hle => exact iff_of_false (lt_irrefl infinity) (not_lt.mpr hle)

/-! ## Intervals -/

theorem IsBetweenMiddles.convex (hx : IsBetweenMiddles index x) (hz : IsBetweenMiddles index z)
    (hxy : x ≤ y) (hyz : y ≤ z) : IsBetweenMiddles index y where
  lower before hbefore := by
    rcases hx.lower before hbefore with hlower | ⟨heven, hlower⟩
    · exact .inl (by linarith)
    · exact (show _ ≤ 2 * y by linarith).lt_or_eq.imp_right fun htie => ⟨heven, htie⟩
  upper := by
    rcases hz.upper with hupper | ⟨heven, hupper⟩
    · exact .inl (by linarith)
    · exact (show 2 * y ≤ _ by linarith).lt_or_eq.imp_right fun htie => ⟨heven, htie⟩

theorem isBetweenMiddles_magnitudeAt (index : ℕ) :
    IsBetweenMiddles index (magnitudeAt index) where
  lower before hbefore := by
    have hless : magnitudeAt before < magnitudeAt index := magnitudeAt_strictMono (by omega)
    exact .inl (by linarith)
  upper := by
    have hless := magnitudeAt_strictMono (Nat.lt_succ_self index)
    exact .inl (by linarith)

theorem IsBetweenMiddles.le_add (h : IsBetweenMiddles index x) :
    2 * x ≤ magnitudeAt index + magnitudeAt (index + 1) :=
  h.upper.elim le_of_lt fun htie => htie.2.le

theorem IsBetweenMiddles.add_le {before : ℕ} (h : IsBetweenMiddles (before + 1) x) :
    magnitudeAt before + magnitudeAt (before + 1) ≤ 2 * x :=
  (h.lower before rfl).elim le_of_lt fun htie => htie.2.le

/-- The intervals come in the order of the indices, and share no more than a middle. -/
theorem IsBetweenMiddles.le_of_lt {index' : ℕ} (hx : IsBetweenMiddles index x)
    (hy : IsBetweenMiddles index' y) (hlt : index < index') : x ≤ y := by
  obtain ⟨before, rfl⟩ := Nat.exists_eq_add_of_lt hlt
  have hupper := hx.le_add
  have hlower := hy.add_le
  have hindex : magnitudeAt index ≤ magnitudeAt (index + before) :=
    magnitudeAt_strictMono.monotone (Nat.le_add_right index before)
  have hnext : magnitudeAt (index + 1) ≤ magnitudeAt (index + before + 1) :=
    magnitudeAt_strictMono.monotone (by omega)
  linarith

theorem magnitudeAt_nonneg (index : ℕ) : 0 ≤ magnitudeAt index := by
  rw [← magnitudeAt_zero]
  exact magnitudeAt_strictMono.monotone (Nat.zero_le index)

/-- Zero is in the interval of the first magnitude only. -/
theorem IsBetweenMiddles.pos (h : IsBetweenMiddles index x) (hindex : 0 < index) : 0 < x := by
  obtain ⟨before, rfl⟩ := Nat.exists_eq_add_one.mpr hindex
  have hbefore := magnitudeAt_nonneg before
  have hless := magnitudeAt_strictMono (Nat.lt_succ_self before)
  have hlower := h.add_le
  linarith

/-! ## The width of an interval -/

/-- Where significands have all their bits, the distance to the magnitude before
    is at most a part in `2 ^ 52`. -/
theorem units_succ_mul_le (h : binade ≤ index + 1) :
    units (index + 1) * binade ≤ units index * binade + units (index + 1) := by
  obtain ⟨shift, significand, rfl, hlt, hnormal⟩ := exists_eq_shift index
  have hfull : binade ≤ significand + 1 := by
    rcases hnormal with rfl | hfull <;> omega
  have hunit : 2 ^ shift * binade ≤ (significand + 1) * 2 ^ shift := by
    rw [Nat.mul_comm]
    exact Nat.mul_le_mul_right _ hfull
  rw [units_add hlt hnormal, units_add_succ hlt hnormal]
  linarith

theorem magnitudeAt_succ_mul_le (h : binade ≤ index + 1) :
    magnitudeAt (index + 1) * 2 ^ 52 ≤ magnitudeAt index * 2 ^ 52 + magnitudeAt (index + 1) := by
  have hunits : ((units (index + 1) * binade : ℕ) : ℚ) ≤
      (units index * binade + units (index + 1) : ℕ) := Nat.cast_le.mpr (units_succ_mul_le h)
  have hbinade : ((binade : ℕ) : ℚ) = 2 ^ 52 := cast_two_pow 52
  push_cast [hbinade] at hunits
  rw [magnitudeAt, magnitudeAt, div_mul_eq_mul_div, div_mul_eq_mul_div, ← add_div]
  exact div_le_div_of_nonneg_right hunits cast_one_pos.le

/-- **Numbers that round to one double** whose significand has all its bits differ by
    less than a part in `10 ^ 15`. -/
theorem IsBetweenMiddles.sub_mul_lt (hx : IsBetweenMiddles index x)
    (hy : IsBetweenMiddles index y) (hfull : binade ≤ index) : (y - x) * 10 ^ 15 < x := by
  have hpos := hx.pos (binade_pos.trans_le hfull)
  obtain ⟨before, rfl⟩ := Nat.exists_eq_add_one.mpr (binade_pos.trans_le hfull)
  have hbefore := magnitudeAt_nonneg before
  have hbelow := magnitudeAt_succ_mul_le hfull
  have habove := magnitudeAt_succ_mul_le (Nat.le_succ_of_le hfull)
  have hlower := hx.add_le
  have hupper := hy.le_add
  -- The neighbours are at most 3 / 2 ^ 52 of the magnitude apart, which is at most 2 * x.
  have hwidth : (y - x) * 2 ^ 52 ≤ 3 * x := by linarith
  linarith

end TypedTriples.Binary64
