import Mathlib
import TypedTriples.Proofs.Literal.Enhanced
import TypedTriples.Proofs.Number.Denotation

/-!
# Literals of floating-point values

Every value has a plain form: digits with a point among them or without one and
no zero to spare, or an infinity. An infinity stands for the numbers that
overflow, and for nothing else.

Main definitions:
* `Literal.IsPlainFloat`: the forms of floating-point values.

Main results:
* `isPositional_positional`: decimals without a zero to spare.
* `isPlainFloat_text`: the written form of a double.
* `floatText_eq_infinity_iff`: the values that are written as infinities.
* `Ruleset.enhance_isPlainFloat`: the literals of floating-point values.
-/

namespace TypedTriples

open Directive (IsRun)
open Number (StartsWithNumber floatText floatValue minusSign withSign)

namespace Literal

/-! ## Specification -/

/-- The digits before a point: zero alone, or digits that do not start with zero. -/
def IsWholePart (t : Text) : Prop := t = ['0'] ∨ IsRun Char.isDigit t ∧ t.head? ≠ some '0'

/-- The digits behind a point: there are some, and they do not end in zero. -/
def IsFractionPart (t : Text) : Prop := IsRun Char.isDigit t ∧ t.getLast? ≠ some '0'

/-- The forms of magnitudes, without an exponent. -/
inductive IsPositional : Text → Prop
  | whole {whole : Text} (hwhole : IsWholePart whole) : IsPositional whole
  | point {whole fraction : Text} (hwhole : IsWholePart whole)
      (hfraction : IsFractionPart fraction) : IsPositional (whole ++ '.' :: fraction)

/-- The forms of floating-point values: a magnitude or an infinity, with a minus
    sign or without one. -/
inductive IsPlainFloat : Text → Prop
  | finite (negative : Bool) {magnitude : Text} (h : IsPositional magnitude) :
      IsPlainFloat (minusSign negative ++ magnitude)
  | infinite (negative : Bool) : IsPlainFloat (minusSign negative ++ "INF".toList)

/-! ## Forms of doubles -/

/-- A decimal is written without a zero to spare, if its digits behind the point do
    not end in zero. -/
theorem isPositional_positional {digits : ℕ} {power : ℤ} (hpos : 0 < digits)
    (hlast : power < 0 → digits % 10 ≠ 0) : IsPositional (Binary64.positional digits power) := by
  have hrun := Text.isRun_ofNat digits
  have hhead := Text.head?_ofNat_ne hpos
  have hend : power < 0 → (Text.ofNat digits).getLast? ≠ some '0' :=
    fun hpower => Text.getLast?_ofNat_ne (hlast hpower)
  have hplaced := Binary64.placed_positional digits power
  generalize Text.ofNat digits = numeral at hrun hhead hend hplaced
  generalize Binary64.positional digits power = t at hplaced ⊢
  cases hplaced with
  | before hpower =>
    refine .whole (.inr ⟨?_, ?_⟩)
    · exact hrun.append_of_forall fun _ => Binary64.isDigit_of_mem_replicate_zero
    · rwa [List.head?_append_of_ne_nil _ hrun.1]
  | @around whole fraction hsplit hwhole hfraction hlength =>
    have hplaces := List.length_pos_iff.mpr hfraction
    have hlast := hend (by omega)
    obtain ⟨hwholeDigits, hfractionDigits⟩ := List.forall_mem_append.mp (hsplit ▸ hrun.2)
    rw [hsplit, List.head?_append_of_ne_nil _ hwhole] at hhead
    rw [hsplit, List.getLast?_append_of_ne_nil _ hfraction] at hlast
    exact .point (.inr ⟨⟨hwhole, hwholeDigits⟩, hhead⟩) ⟨⟨hfraction, hfractionDigits⟩, hlast⟩
  | @behind places hlength =>
    have hplaces := List.length_pos_iff.mpr hrun.1
    refine .point (.inl rfl) ⟨⟨List.append_ne_nil_of_right_ne_nil _ hrun.1, ?_⟩, ?_⟩
    · exact List.forall_mem_append.mpr ⟨fun _ => Binary64.isDigit_of_mem_replicate_zero, hrun.2⟩
    · rw [List.getLast?_append_of_ne_nil _ hrun.1]
      exact hend (by omega)

theorem isPositional_magnitudeText {index : ℕ} (h : index < Binary64.infinity) :
    IsPositional (Binary64.magnitudeText index) := by
  unfold Binary64.magnitudeText
  split_ifs with hzero hinfinite
  · exact .whole (.inl rfl)
  · exact absurd h (Nat.not_lt.mpr hinfinite)
  · have hindex := Nat.pos_of_ne_zero hzero
    dsimp only
    exact isPositional_positional (Binary64.shortest_pos hindex)
      (Binary64.shortest_mod_ten_ne hindex)

/-- **The written form of a double is plain.** -/
theorem isPlainFloat_text (d : Binary64) : IsPlainFloat d.text := by
  rcases Nat.lt_or_ge d.index Binary64.infinity with hfinite | hinfinite
  · rw [Binary64.text_eq]
    exact .finite d.negative (isPositional_magnitudeText hfinite)
  · rw [Number.text_eq_infinity_iff.mpr ⟨rfl, hinfinite⟩]
    exact .infinite d.negative

end Literal

/-! ## Infinities -/

namespace Number

open Binary64 (overflow)

theorem overflow_pos : 0 < overflow :=
  sub_pos.mpr (pow_lt_pow_right₀ one_lt_two (by norm_num))

/-- **The values that are written as infinities** are those with numbers that
    overflow. -/
theorem floatText_eq_infinity_iff {value : Text} {negative : Bool} :
    floatText value = minusSign negative ++ "INF".toList ↔
      ∃ amount, StartsWithNumber value (withSign negative amount) ∧ overflow ≤ amount := by
  rw [floatText, text_eq_infinity_iff]
  constructor
  · rintro ⟨rfl, hinfinite⟩
    have hne : (floatValue value).index ≠ 0 := by
      have := Binary64.infinity_eq
      omega
    obtain ⟨amount, hstarts, hrounds⟩ := startsWithNumber_of_index_ne hne
    exact ⟨amount, hstarts, not_lt.mp fun hlt =>
      absurd (hrounds.index_lt_infinity_iff.mpr hlt) (Nat.not_lt.mpr hinfinite)⟩
  · rintro ⟨amount, hstarts, hle⟩
    have hpos := overflow_pos.trans_le hle
    obtain ⟨negative', amount', hamount', hsame, hrounds⟩ := hstarts.exists_roundsTo
    have hne : withSign negative' amount' ≠ 0 := by
      rw [hsame, ← abs_ne_zero, abs_withSign negative hpos.le]
      exact hpos.ne'
    obtain ⟨rfl, rfl⟩ := withSign_inj_of_ne hamount' hpos.le hsame hne
    exact ⟨hrounds.negative_eq, Nat.not_lt.mp fun hfinite =>
      absurd (hrounds.index_lt_infinity_iff.mp hfinite) (not_lt.mpr hle)⟩

end Number

/-! ## Statements -/

namespace Ruleset

variable {rules : Ruleset} {record : Triple}

open Binary64 (overflow)

/-- **The literals of floating-point values.** A record whose predicate has them
    always has a statement, and its literal has a plain form. The form is an infinity
    exactly if the object starts with a number, in ASCII digits, that overflows on
    that side. -/
theorem enhance_isPlainFloat (hkind : rules.resolve record.predicate = .float) :
    ∃ statement lexical, rules.enhance record = .ok statement ∧
      statement.object = Literal.typed .float lexical ∧ Literal.IsPlainFloat lexical ∧
      (lexical = "INF".toList ↔ ∃ x, StartsWithNumber record.object x ∧ overflow ≤ x) ∧
      (lexical = "-INF".toList ↔ ∃ x, StartsWithNumber record.object x ∧ x ≤ -overflow) := by
  obtain ⟨statement, hok, hobject⟩ := exists_enhance_of_term hkind rfl
  refine ⟨statement, floatText record.object, hok, hobject, Literal.isPlainFloat_text _,
    @Number.floatText_eq_infinity_iff record.object false, ?_⟩
  constructor
  · intro h
    obtain ⟨amount, hstarts, hle⟩ := (@Number.floatText_eq_infinity_iff record.object true).mp h
    exact ⟨-amount, hstarts, neg_le_neg hle⟩
  · rintro ⟨x, hstarts, hle⟩
    refine (@Number.floatText_eq_infinity_iff record.object true).mpr ⟨-x, ?_, le_neg_of_le_neg hle⟩
    rwa [Number.withSign_true, neg_neg]

/-- A negative number that overflows, with text behind. -/
theorem enhance_isPlainFloat_negative_overflow :
    ∃ statement, (ofText "ex:p float".toList).enhance
        ⟨"ex:a".toList, "ex:p".toList, "-1e400 kg".toList⟩ = .ok statement ∧
      statement.object = Literal.typed .float "-INF".toList := by
  have hkind : (ofText "ex:p float".toList).resolve "ex:p".toList = .float := by
    cbv
  have hdenotes : Number.Denotes "-1e400".toList (-(((1 : ℕ) : ℚ) * 10 ^ (400 : ℤ))) :=
    Number.denotes_iff.mpr ⟨⟨true, 1, 400⟩, by decide, rfl⟩
  have hstarts : StartsWithNumber "-1e400 kg".toList (-(((1 : ℕ) : ℚ) * 10 ^ (400 : ℤ))) :=
    Number.startsWithNumber_of_leadingFloat? (by decide +kernel) hdenotes
  obtain ⟨statement, lexical, hok, hobject, -, -, hinfinite⟩ :=
    @enhance_isPlainFloat _ ⟨"ex:a".toList, "ex:p".toList, "-1e400 kg".toList⟩ hkind
  obtain rfl := hinfinite.mpr
    ⟨_, hstarts, neg_le_neg (Decimal.overflow_le_of_le one_ne_zero le_rfl)⟩
  exact ⟨statement, hok, hobject⟩

end Ruleset

end TypedTriples
