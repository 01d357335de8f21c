import Mathlib
import TypedTriples.Number.Leading
import TypedTriples.Proofs.Number.Shortest

/-!
# Written floating-point values

A value of a floating-point kind stands for the double nearest to its leading
numeral. Its written form is a numeral that rounds to the same double, so that
it is its own written form.

Main definitions:
* `Number.StandsFor`: the double that a value stands for.

Main results:
* `standsFor_iff`: every value stands for one double, the one that is computed.
* `floatText_stable`: the written form stands for the same double, and is its
  own written form.
-/

namespace TypedTriples.Number

open Text (isDecimalDigit)

/-! ## Specification -/

/-- A value stands for the double that its leading numeral rounds to, and for
    positive zero if it has none or one with digits outside ASCII. -/
inductive StandsFor (value : Text) : Binary64 → Prop
  | numeral {text : Text} {n : Numeral} {x : Binary64} (hstarts : StartsWithNumeral value text n)
      (hreads : ReadsAs text x) : StandsFor value x
  | otherDigits {text : Text} {n : Numeral} (hstarts : StartsWithNumeral value text n)
      (hother : ∃ c ∈ text, isDecimalDigit c = true ∧ c.isDigit = false) :
      StandsFor value ⟨false, 0⟩
  | noNumeral (hnone : ∀ text n, ¬ StartsWithNumeral value text n) : StandsFor value ⟨false, 0⟩

/-! ## The double of a value -/

theorem exists_readsAs {text : Text} {n : Numeral} (hspells : SpellsNumeral isDecimalDigit text n)
    (hascii : ¬ ∃ c ∈ text, isDecimalDigit c = true ∧ c.isDigit = false) : ∃ x, ReadsAs text x := by
  obtain ⟨d, hd⟩ := Option.ne_none_iff_exists'.mp (mt hspells.ofText?_eq_none_iff.mp hascii)
  exact ⟨d.toBinary64, readsAs_iff.mpr ⟨d, hd, rfl⟩⟩

theorem StartsWithNumeral.spellsNumeral {value text : Text} {n : Numeral}
    (h : StartsWithNumeral value text n) : SpellsNumeral isDecimalDigit text n := by
  obtain ⟨-, hspells, -⟩ := h
  exact hspells

section

variable {value text : Text} {n : Numeral} (hstarts : StartsWithNumeral value text n)
include hstarts

theorem floatValue_of_readsAs {x : Binary64} (hreads : ReadsAs text x) : floatValue value = x := by
  obtain ⟨d, hd, rfl⟩ := readsAs_iff.mp hreads
  rw [floatValue, leadingFloat?_eq_some_iff.mpr ⟨n, hstarts⟩, Option.bind_some, hd]

theorem floatValue_of_otherDigits
    (hother : ∃ c ∈ text, isDecimalDigit c = true ∧ c.isDigit = false) :
    floatValue value = ⟨false, 0⟩ := by
  rw [floatValue, leadingFloat?_eq_some_iff.mpr ⟨n, hstarts⟩, Option.bind_some,
    hstarts.spellsNumeral.ofText?_eq_none_iff.mpr hother]

end

theorem floatValue_of_not_startsWithNumeral {value : Text}
    (h : ∀ text n, ¬ StartsWithNumeral value text n) : floatValue value = ⟨false, 0⟩ := by
  have hnone : leadingFloat? value = none :=
    Option.eq_none_iff_forall_ne_some.mpr fun text htext =>
      (leadingFloat?_eq_some_iff.mp htext).elim (h text)
  rw [floatValue, hnone, Option.bind_none]

/-- **A value stands for one double**, the one that is computed. -/
theorem standsFor_iff {value : Text} {x : Binary64} :
    StandsFor value x ↔ x = floatValue value := by
  constructor
  · intro h
    cases h with
    | numeral hstarts hreads => exact (floatValue_of_readsAs hstarts hreads).symm
    | otherDigits hstarts hother => exact (floatValue_of_otherDigits hstarts hother).symm
    | noNumeral hnone => exact (floatValue_of_not_startsWithNumeral hnone).symm
  · rintro rfl
    by_cases hnone : ∀ text n, ¬ StartsWithNumeral value text n
    · rw [floatValue_of_not_startsWithNumeral hnone]
      exact .noNumeral hnone
    · push Not at hnone
      obtain ⟨text, n, hstarts⟩ := hnone
      by_cases hother : ∃ c ∈ text, isDecimalDigit c = true ∧ c.isDigit = false
      · rw [floatValue_of_otherDigits hstarts hother]
        exact .otherDigits hstarts hother
      · obtain ⟨x, hx⟩ := exists_readsAs hstarts.spellsNumeral hother
        rw [floatValue_of_readsAs hstarts hx]
        exact .numeral hstarts hx

/-! ## The written form -/

theorem startsWithNumeral_self {t : Text} {n : Numeral} (h : SpellsNumeral Char.isDigit t n) :
    StartsWithNumeral t t n := by
  have hspells := h.imp fun c _ => Text.isDecimalDigit_of_isDigit
  have hstarts := StartsWithNumeral.intro (show Text.isBlank [] = true from rfl) hspells
    fun longer n' hlonger _ => (List.append_nil t ▸ hlonger).length_le
  rwa [List.append_nil] at hstarts

theorem floatValue_text {x : Binary64} (h : x.index < Binary64.infinity) :
    floatValue x.text = x := by
  have hreads := Binary64.readsAs_text h
  obtain ⟨n, hspells, -⟩ := id hreads
  exact floatValue_of_readsAs (startsWithNumeral_self hspells) hreads

/-- No numeral is written like an infinity. -/
theorem not_spellsNumeral_infinity (negative : Bool) (n : Numeral) :
    ¬ SpellsNumeral Char.isDigit (minusSign negative ++ "INF".toList) n := by
  intro h
  rcases h.mem (List.mem_append_right _ (show 'I' ∈ "INF".toList by decide)) with hdigit | hmark
  · exact absurd hdigit (by decide)
  · exact absurd hmark (by decide)

/-- An infinity is written as one, and nothing else is. -/
theorem text_eq_infinity_iff {x : Binary64} {negative : Bool} :
    x.text = minusSign negative ++ "INF".toList ↔
      x.negative = negative ∧ Binary64.infinity ≤ x.index := by
  have htext : Binary64.infinity ≤ x.index → x.text = minusSign x.negative ++ "INF".toList := by
    intro hinfinite
    have hne : x.index ≠ 0 := by
      have := Binary64.infinity_eq
      omega
    rw [Binary64.text_eq, Binary64.magnitudeText, if_neg hne, if_pos hinfinite]
  constructor
  · intro h
    have hinfinite : Binary64.infinity ≤ x.index := by
      by_contra hfinite
      obtain ⟨n, hspells, -⟩ := Binary64.readsAs_text (Nat.lt_of_not_le hfinite)
      exact not_spellsNumeral_infinity negative n (h ▸ hspells)
    exact ⟨minusSign_injective (List.append_cancel_right ((htext hinfinite).symm.trans h)), hinfinite⟩
  · rintro ⟨rfl, hinfinite⟩
    exact htext hinfinite

theorem index_lt_infinity {x : Binary64} (hplus : x.text ≠ "INF".toList)
    (hminus : x.text ≠ "-INF".toList) : x.index < Binary64.infinity := by
  by_contra hinfinite
  have htext := text_eq_infinity_iff.mpr ⟨rfl, Nat.not_lt.mp hinfinite⟩
  generalize x.negative = negative at htext
  cases negative with
  | false => exact hplus htext
  | true => exact hminus htext

/-- **Stability.** Unless the written form is that of an infinity, reading it as an exact
    decimal and rounding gives the double that the value stands for, with its sign, and
    the written form is its own written form. -/
theorem floatText_stable (value : Text) (hplus : floatText value ≠ "INF".toList)
    (hminus : floatText value ≠ "-INF".toList) :
    ∃ x, x.index < Binary64.infinity ∧ (∀ y, StandsFor value y ↔ y = x) ∧
      (∀ y, ReadsAs (floatText value) y ↔ y = x) ∧
      floatText (floatText value) = floatText value := by
  have hfinite := index_lt_infinity hplus hminus
  have hreads := Binary64.readsAs_text hfinite
  refine ⟨floatValue value, hfinite, fun y => standsFor_iff, fun y => ?_, ?_⟩
  · exact ⟨fun hy => hy.unique hreads, fun hy => hy ▸ hreads⟩
  · rw [floatText, floatText, floatValue_text hfinite]

/-- The least negative double, in a text with an exponent and a unit behind. -/
theorem floatText_stable_least_magnitude :
    floatText " -4.9E-324 kg".toList ≠ "INF".toList ∧
      floatText " -4.9E-324 kg".toList ≠ "-INF".toList ∧
      ReadsAs (floatText " -4.9E-324 kg".toList) ⟨true, 1⟩ := by
  have hplus : floatText " -4.9E-324 kg".toList ≠ "INF".toList := by decide +kernel
  have hminus : floatText " -4.9E-324 kg".toList ≠ "-INF".toList := by decide +kernel
  have hvalue : floatValue " -4.9E-324 kg".toList = ⟨true, 1⟩ := by decide +kernel
  obtain ⟨x, -, hstands, hreads, -⟩ := floatText_stable " -4.9E-324 kg".toList hplus hminus
  exact ⟨hplus, hminus, (hreads _).mpr ((hstands _).mp (standsFor_iff.mpr hvalue.symm))⟩

end TypedTriples.Number
