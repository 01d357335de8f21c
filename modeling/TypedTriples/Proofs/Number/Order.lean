import Mathlib
import TypedTriples.Proofs.Number.Denotation

/-!
# The order of written floating-point values

Rounding and writing keep the order of numbers: of two values, the one with the
smaller number is not written as the larger. What is written depends on the
number alone, whatever digits, point and exponent it has in the value.

Main definitions:
* `Number.DenotesExtended`: the number or the infinity that a text denotes.
* `Binary64.written`: what the written form of a double denotes.

Main results:
* `denotesExtended_text_iff`: every written form denotes one extended number.
* `written_le_written`: a greater number is not written as a smaller one.
* `floatText_mono`: the order of two written forms, and when they are the same.
-/

namespace TypedTriples

namespace Number

/-- The numbers, with an infinity above and an infinity below all of them. -/
abbrev Extended := WithBot (WithTop ℚ)

/-- A text denotes a number or an infinity. -/
inductive DenotesExtended : Text → Extended → Prop
  | number {t : Text} {x : ℚ} (h : Denotes t x) : DenotesExtended t (x : WithTop ℚ)
  | plus : DenotesExtended "INF".toList ⊤
  | minus : DenotesExtended "-INF".toList ⊥

theorem not_denotes_infinity (negative : Bool) (x : ℚ) :
    ¬ Denotes (minusSign negative ++ "INF".toList) x := by
  rintro ⟨n, hspells, -⟩
  exact not_spellsNumeral_infinity negative n hspells

theorem DenotesExtended.unique {t : Text} {p q : Extended} (hp : DenotesExtended t p)
    (hq : DenotesExtended t q) : p = q := by
  cases hp with
  | number hx =>
    cases hq with
    | number hy => rw [hx.unique hy]
    | plus => exact absurd hx (not_denotes_infinity false _)
    | minus => exact absurd hx (not_denotes_infinity true _)
  | plus =>
    cases hq with
    | number hy => exact absurd hy (not_denotes_infinity false _)
    | plus => rfl
  | minus =>
    cases hq with
    | number hy => exact absurd hy (not_denotes_infinity true _)
    | minus => rfl

end Number

open Number (DenotesExtended Extended withSign)

namespace Binary64

/-! ## What is written for a double -/

/-- The extended number that is written for a double. -/
def written (d : Binary64) : Extended :=
  if d.index < infinity then (withSign d.negative (decimalAt d.index) : WithTop ℚ)
  else if d.negative then ⊥ else ⊤

/-- **Every written form denotes one extended number.** -/
theorem denotesExtended_text_iff {d : Binary64} {p : Extended} :
    DenotesExtended d.text p ↔ p = d.written := by
  have hdenotes : DenotesExtended d.text d.written := by
    unfold written
    split_ifs with hfinite hnegative
    · exact .number ((Number.denotes_text_iff hfinite).mpr rfl)
    · rw [Number.text_eq_infinity_iff.mpr ⟨hnegative, Nat.not_lt.mp hfinite⟩]
      exact .minus
    · rw [Number.text_eq_infinity_iff.mpr
        ⟨Bool.eq_false_iff.mpr hnegative, Nat.not_lt.mp hfinite⟩]
      exact .plus
  constructor
  · exact fun hp => hp.unique hdenotes
  · rintro rfl
    exact hdenotes

/-! ## The order of what is written -/

theorem written_zero (negative : Bool) : written ⟨negative, 0⟩ = ((0 : ℚ) : WithTop ℚ) := by
  have hfinite : 0 < infinity := by decide
  rw [written, if_pos hfinite, decimalAt, if_pos rfl]
  cases negative with
  | false => rw [Number.withSign_false]
  | true => rw [Number.withSign_true, neg_zero]

theorem written_positive (index : ℕ) :
    written ⟨false, index⟩ =
      if index < infinity then ((decimalAt index : WithTop ℚ) : Extended) else ⊤ := rfl

theorem written_negative (index : ℕ) :
    written ⟨true, index⟩ =
      if index < infinity then (((-decimalAt index : ℚ) : WithTop ℚ) : Extended) else ⊥ := rfl

theorem written_le_of_index_le {index index' : ℕ} (h : index ≤ index') :
    written ⟨false, index⟩ ≤ written ⟨false, index'⟩ := by
  rw [written_positive index, written_positive index']
  split_ifs with hfinite hfinite'
  · exact WithBot.coe_le_coe.mpr (WithTop.coe_le_coe.mpr (decimalAt_mono h))
  · exact le_top
  · omega
  · exact le_rfl

theorem written_le_of_le_index {index index' : ℕ} (h : index ≤ index') :
    written ⟨true, index'⟩ ≤ written ⟨true, index⟩ := by
  rw [written_negative index, written_negative index']
  split_ifs with hfinite' hfinite
  · exact WithBot.coe_le_coe.mpr (WithTop.coe_le_coe.mpr (neg_le_neg (decimalAt_mono h)))
  · omega
  · exact bot_le
  · exact le_rfl

theorem RoundsTo.eq_zero {negative : Bool} {d : Binary64} (h : RoundsTo negative 0 d) :
    d = ⟨negative, 0⟩ := by
  have hzero := isBetweenMiddles_zero.roundsTo negative
  rw [Nat.min_zero] at hzero
  exact h.unique hzero

/-- **A greater number is not written as a smaller one.** -/
theorem written_le_written {negative negative' : Bool} {amount amount' : ℚ} {d d' : Binary64}
    (hd : RoundsTo negative amount d) (hd' : RoundsTo negative' amount' d') (hamount : 0 ≤ amount)
    (hamount' : 0 ≤ amount') (hle : withSign negative amount ≤ withSign negative' amount') :
    d.written ≤ d'.written := by
  obtain ⟨sign, index⟩ := d
  obtain ⟨sign', index'⟩ := d'
  obtain rfl : sign = negative := hd.negative_eq
  obtain rfl : sign' = negative' := hd'.negative_eq
  cases sign with
  | false =>
    cases sign' with
    | false => exact written_le_of_index_le (hd.index_le hd' hle)
    | true =>
      -- Both numbers are zero.
      rw [Number.withSign_false, Number.withSign_true] at hle
      obtain rfl : amount = 0 := by linarith
      obtain rfl : amount' = 0 := by linarith
      rw [hd.eq_zero, hd'.eq_zero, written_zero, written_zero]
  | true =>
    cases sign' with
    | false =>
      calc written ⟨true, index⟩ ≤ written ⟨true, 0⟩ := written_le_of_le_index (Nat.zero_le index)
        _ = written ⟨false, 0⟩ := by rw [written_zero, written_zero]
        _ ≤ written ⟨false, index'⟩ := written_le_of_index_le (Nat.zero_le index')
    | true => exact written_le_of_le_index (hd'.index_le hd (neg_le_neg_iff.mp hle))

end Binary64

/-! ## Two values -/

namespace Number

/-- **Order and spelling.** Of two values, the one with the smaller number is not
    written as the larger, with the infinities above and below all numbers; and values
    with one number other than zero are written alike, however it is spelled. -/
theorem floatText_mono {value value' : Text} {x y : ℚ} (hx : StartsWithNumber value x)
    (hy : StartsWithNumber value' y) (hle : x ≤ y) :
    (∃ p q, (∀ r, DenotesExtended (floatText value) r ↔ r = p) ∧
      (∀ r, DenotesExtended (floatText value') r ↔ r = q) ∧ p ≤ q) ∧
      (x = y → x ≠ 0 → floatText value = floatText value') := by
  obtain ⟨negative, amount, hamount, rfl, hrounds⟩ := hx.exists_roundsTo
  obtain ⟨negative', amount', hamount', rfl, hrounds'⟩ := hy.exists_roundsTo
  constructor
  · exact ⟨_, _, fun r => Binary64.denotesExtended_text_iff,
      fun r => Binary64.denotesExtended_text_iff,
      Binary64.written_le_written hrounds hrounds' hamount hamount' hle⟩
  · intro hsame hne
    obtain ⟨rfl, rfl⟩ := withSign_inj_of_ne hamount hamount' hsame hne
    rw [floatText, floatText, hrounds.unique hrounds']

/-- One number with and without an exponent, and with text behind. -/
theorem floatText_mono_thousand :
    StartsWithNumber " -0.1e4 m".toList (-1000) ∧ StartsWithNumber "-1000.00.5".toList (-1000) ∧
      floatText " -0.1e4 m".toList = floatText "-1000.00.5".toList := by
  have hdenotes : Denotes "-0.1e4".toList (-1000) :=
    denotes_iff.mpr ⟨⟨true, 1, 3⟩, by decide, by norm_num [withSign, Decimal.amount]⟩
  have hdenotes' : Denotes "-1000.00".toList (-1000) :=
    denotes_iff.mpr ⟨⟨true, 100000, -2⟩, by decide, by norm_num [withSign, Decimal.amount]⟩
  have hx : StartsWithNumber " -0.1e4 m".toList (-1000) :=
    startsWithNumber_of_leadingFloat? (by decide +kernel) hdenotes
  have hy : StartsWithNumber "-1000.00.5".toList (-1000) :=
    startsWithNumber_of_leadingFloat? (by decide +kernel) hdenotes'
  exact ⟨hx, hy, (floatText_mono hx hy le_rfl).2 rfl (by norm_num)⟩

end Number

end TypedTriples
