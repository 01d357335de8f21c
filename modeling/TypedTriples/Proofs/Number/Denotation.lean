import Mathlib
import TypedTriples.Proofs.Number.Float

/-!
# The numbers that values and written forms denote

A numeral in ASCII digits denotes a rational number, however long it is and
however large its exponent. A value that starts with one stands for the double
that its number rounds to, and the written form of a finite double denotes the
decimal that is written for its magnitude.

Main definitions:
* `Number.Denotes`: the number that a text denotes.
* `Number.StartsWithNumber`: the number that a value starts with.

Main results:
* `StartsWithNumber.exists_roundsTo`: the double that a value stands for, from
  its number.
* `denotes_text_iff`: what the written form of a finite double denotes.
-/

namespace TypedTriples.Number

variable {t value : Text} {x y : ℚ}

/-! ## Specification -/

/-- The number with a sign and a magnitude. -/
def withSign (negative : Bool) (amount : ℚ) : ℚ := if negative then -amount else amount

/-- A text is a numeral in ASCII digits, and denotes a number exactly. -/
def Denotes (t : Text) (x : ℚ) : Prop :=
  ∃ n, SpellsNumeral Char.isDigit t n ∧ withSign n.negative n.amount = x

/-- The longest numeral that a value starts with is one in ASCII digits, and
    denotes a number. -/
def StartsWithNumber (value : Text) (x : ℚ) : Prop :=
  ∃ text n, StartsWithNumeral value text n ∧ Denotes text x

/-! ## Signs -/

theorem withSign_false (amount : ℚ) : withSign false amount = amount := rfl

theorem withSign_true (amount : ℚ) : withSign true amount = -amount := rfl

theorem abs_withSign (negative : Bool) {amount : ℚ} (h : 0 ≤ amount) :
    |withSign negative amount| = amount := by
  cases negative with
  | false => exact abs_of_nonneg h
  | true => rw [withSign_true, abs_neg, abs_of_nonneg h]

theorem withSign_inj_of_ne {negative negative' : Bool} {amount amount' : ℚ}
    (hamount : 0 ≤ amount) (hamount' : 0 ≤ amount')
    (h : withSign negative amount = withSign negative' amount')
    (hne : withSign negative amount ≠ 0) : negative = negative' ∧ amount = amount' := by
  cases negative <;> cases negative' <;> simp only [withSign_false, withSign_true] at h hne
  · exact ⟨rfl, h⟩
  · exact absurd (show amount = 0 by linarith) hne
  · exact absurd (show -amount = 0 by linarith) hne
  · exact ⟨rfl, neg_inj.mp h⟩

theorem Numeral.amount_nonneg (n : Numeral) : 0 ≤ n.amount := by
  unfold Numeral.amount
  positivity

/-! ## The number of a text -/

theorem denotes_iff :
    Denotes t x ↔ ∃ d, Decimal.ofText? t = some d ∧ withSign d.negative d.amount = x := by
  constructor
  · rintro ⟨n, hspells, rfl⟩
    refine ⟨n.decimal, Decimal.ofText?_eq_some_iff.mpr ⟨n, hspells, rfl⟩, ?_⟩
    rw [hspells.amount_decimal]
    rfl
  · rintro ⟨d, hd, rfl⟩
    obtain ⟨n, hspells, rfl⟩ := Decimal.ofText?_eq_some_iff.mp hd
    refine ⟨n, hspells, ?_⟩
    rw [hspells.amount_decimal]
    rfl

theorem Denotes.unique (hx : Denotes t x) (hy : Denotes t y) : x = y := by
  obtain ⟨d, hd, rfl⟩ := denotes_iff.mp hx
  obtain ⟨d', hd', rfl⟩ := denotes_iff.mp hy
  rw [Option.some.inj (hd.symm.trans hd')]

/-- The numeral that is taken from a value decides which number it starts with. -/
theorem startsWithNumber_of_leadingFloat? (h : leadingFloat? value = some t) (hx : Denotes t x) :
    StartsWithNumber value x := by
  obtain ⟨n, hstarts⟩ := leadingFloat?_eq_some_iff.mp h
  exact ⟨t, n, hstarts, hx⟩

/-! ## The double of a number -/

/-- A value stands for the double that its number rounds to. -/
theorem StartsWithNumber.exists_roundsTo (h : StartsWithNumber value x) :
    ∃ negative amount, 0 ≤ amount ∧ withSign negative amount = x ∧
      Binary64.RoundsTo negative amount (floatValue value) := by
  obtain ⟨text, n, hstarts, n', hspells, rfl⟩ := h
  refine ⟨n'.negative, n'.amount, n'.amount_nonneg, rfl, ?_⟩
  have hread := n'.decimal.roundsTo_toBinary64
  rw [hspells.amount_decimal] at hread
  have hreads : ReadsAs text n'.decimal.toBinary64 := ⟨n', hspells, hread⟩
  rwa [floatValue_of_readsAs hstarts hreads]

/-- A value with a double other than zero starts with a number that rounds to it. -/
theorem startsWithNumber_of_index_ne (h : (floatValue value).index ≠ 0) :
    ∃ amount, StartsWithNumber value (withSign (floatValue value).negative amount) ∧
      Binary64.RoundsTo (floatValue value).negative amount (floatValue value) := by
  have hstands : StandsFor value (floatValue value) := standsFor_iff.mpr rfl
  generalize floatValue value = d at h hstands
  cases hstands with
  | @numeral text n _ hstarts hreads =>
    obtain ⟨n', hspells, hrounds⟩ := hreads
    rw [hrounds.negative_eq]
    exact ⟨n'.amount, ⟨text, n, hstarts, n', hspells, rfl⟩, hrounds⟩
  | otherDigits => exact absurd rfl h
  | noNumeral => exact absurd rfl h

/-! ## The number of a written form -/

/-- **The written form of a finite double denotes its decimal.** -/
theorem denotes_text_iff {d : Binary64} (hfinite : d.index < Binary64.infinity) :
    Denotes d.text x ↔ x = withSign d.negative (Binary64.decimalAt d.index) := by
  obtain ⟨n, hspells, hnegative, hamount⟩ := Binary64.exists_spellsNumeral_text hfinite
  have hdenotes : Denotes d.text (withSign d.negative (Binary64.decimalAt d.index)) :=
    ⟨n, hspells, by rw [hnegative, hamount]⟩
  constructor
  · exact fun hx => hx.unique hdenotes
  · rintro rfl
    exact hdenotes

end TypedTriples.Number
