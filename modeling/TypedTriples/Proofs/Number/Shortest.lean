import Mathlib
import TypedTriples.Proofs.Number.Decimal
import TypedTriples.Proofs.Number.Grid

/-!
# Written doubles read back

The shortest decimal of a magnitude rounds to it, and its written form is a
numeral for that decimal, so that reading it gives the double back.

Main definitions:
* `Binary64.Placed`: where the digits of a decimal stand.

Main results:
* `placed_positional`: the three ways in which a decimal is written.
* `exists_spellsMantissa_magnitudeText`: what the written form of a finite
  magnitude denotes.
* `readsAs_text`: the written form of a finite double reads as that double.
-/

namespace TypedTriples

open Directive (IsRun)
open Number (Numeral SpellsMantissa SpellsNumeral)

namespace Binary64

/-! ## Numerals without an exponent -/

/-- Where the digits of a decimal stand: before the point with zeros behind them, on
    both sides of it, or behind it with zeros before them. -/
inductive Placed (numeral : Text) (power : ℤ) : Text → Prop
  | before (hpower : 0 ≤ power) :
      Placed numeral power (numeral ++ List.replicate power.toNat '0')
  | around {whole fraction : Text} (hsplit : numeral = whole ++ fraction) (hwhole : whole ≠ [])
      (hfraction : fraction ≠ []) (hlength : -(fraction.length : ℤ) = power) :
      Placed numeral power (whole ++ '.' :: fraction)
  | behind {places : ℕ} (hlength : -((places + numeral.length : ℕ) : ℤ) = power) :
      Placed numeral power (['0'] ++ '.' :: (List.replicate places '0' ++ numeral))

theorem placed_positional (digits : ℕ) (power : ℤ) :
    Placed (Text.ofNat digits) power (positional digits power) := by
  unfold positional
  dsimp only
  generalize Text.ofNat digits = numeral
  split_ifs with hpower hplaces
  · exact .before hpower
  · refine .around (List.take_append_drop _ numeral).symm ?_ ?_ ?_
    · rw [← List.length_pos_iff, List.length_take]
      omega
    · rw [← List.length_pos_iff, List.length_drop]
      omega
    · rw [List.length_drop]
      omega
  · exact .behind (by omega)

theorem isRun_zero : IsRun Char.isDigit ['0'] :=
  ⟨List.cons_ne_nil _ _, fun _ hc => List.mem_singleton.mp hc ▸ rfl⟩

theorem toNat_zero : Text.toNat ['0'] = 0 := rfl

theorem isDigit_of_mem_replicate_zero {n : ℕ} {c : Char} (h : c ∈ List.replicate n '0') :
    c.isDigit = true := by
  rw [List.eq_of_mem_replicate h]
  rfl

/-- A numeral without an exponent is digits before and after a point, and they
    denote the number. -/
theorem exists_spellsMantissa_positional (digits : ℕ) (power : ℤ) :
    ∃ whole fraction, SpellsMantissa Char.isDigit (positional digits power) whole fraction ∧
      (Text.toNat (whole ++ fraction) : ℚ) * 10 ^ (-(fraction.length : ℤ)) =
        digits * 10 ^ power := by
  have hrun := Text.isRun_ofNat digits
  have hvalue := Text.toNat_ofNat digits
  have hplaced := placed_positional digits power
  generalize Text.ofNat digits = numeral at hrun hvalue hplaced
  generalize positional digits power = t at hplaced ⊢
  cases hplaced with
  | before hpower =>
    obtain ⟨n, rfl⟩ := Int.eq_ofNat_of_zero_le hpower
    refine ⟨_, [], .whole (hrun.append_of_forall fun _ => isDigit_of_mem_replicate_zero), ?_⟩
    rw [List.append_nil, Text.toNat_append, Text.toNat_replicate_zero, hvalue,
      List.length_replicate, List.length_nil, Nat.cast_zero, neg_zero, zpow_zero, mul_one,
      Int.toNat_natCast, zpow_natCast]
    push_cast
    ring
  | @around whole fraction hsplit hwhole hfraction hlength =>
    have hdigits := List.forall_mem_append.mp (hsplit ▸ hrun.2)
    refine ⟨whole, fraction, .point ⟨hwhole, hdigits.1⟩ hdigits.2, ?_⟩
    rw [← hsplit, hvalue, hlength]
  | @behind places hlength =>
    refine ⟨['0'], List.replicate places '0' ++ numeral, .point isRun_zero
      (List.forall_mem_append.mpr ⟨fun _ => isDigit_of_mem_replicate_zero, hrun.2⟩), ?_⟩
    rw [Text.toNat_append, Text.toNat_append, Text.toNat_replicate_zero, toNat_zero, hvalue,
      List.length_append, List.length_replicate, hlength, Nat.mul_zero, Nat.mul_zero, Nat.zero_add,
      Nat.zero_add]

/-! ## Written doubles -/

/-- The written form of a finite magnitude is digits before and after a point,
    and they denote the number that is written for it. -/
theorem exists_spellsMantissa_magnitudeText {index : ℕ} (h : index < infinity) :
    ∃ whole fraction, SpellsMantissa Char.isDigit (magnitudeText index) whole fraction ∧
      Text.toNat (whole ++ fraction) * 10 ^ (-(fraction.length : ℤ)) = decimalAt index := by
  unfold magnitudeText decimalAt
  split_ifs with hzero hinfinite
  · refine ⟨['0'], [], .whole isRun_zero, ?_⟩
    rw [List.append_nil, toNat_zero, Nat.cast_zero, zero_mul]
  · exact absurd h (Nat.not_lt.mpr hinfinite)
  · dsimp only
    exact exists_spellsMantissa_positional (shortest index).1 (shortest index).2

theorem text_eq (x : Binary64) : x.text = Number.minusSign x.negative ++ magnitudeText x.index := by
  rw [text, Number.minusSign]
  split_ifs <;> rfl

theorem exists_spellsNumeral_text {x : Binary64} (h : x.index < infinity) :
    ∃ n, SpellsNumeral Char.isDigit x.text n ∧ n.negative = x.negative ∧
      n.amount = decimalAt x.index := by
  obtain ⟨whole, fraction, hmantissa, hvalue⟩ := exists_spellsMantissa_magnitudeText h
  have hspells : SpellsNumeral Char.isDigit x.text ⟨x.negative, whole, fraction, 0⟩ := by
    rw [text_eq, ← List.append_nil (Number.minusSign x.negative ++ magnitudeText x.index)]
    exact .intro (Number.spellsSign_minusSign x.negative) hmantissa .none
  refine ⟨_, hspells, rfl, ?_⟩
  rw [← hspells.amount_decimal, Decimal.amount, Numeral.decimal, zero_sub]
  exact hvalue

/-- **The written form of a finite double reads as that double.** -/
theorem readsAs_text {x : Binary64} (h : x.index < infinity) : Number.ReadsAs x.text x := by
  obtain ⟨n, hspells, hnegative, hamount⟩ := exists_spellsNumeral_text h
  refine ⟨n, hspells, ?_⟩
  have hrounds := (isBetweenMiddles_decimalAt x.index).roundsTo x.negative
  rw [min_eq_right h.le] at hrounds
  rwa [hnegative, hamount]

end Binary64

end TypedTriples
