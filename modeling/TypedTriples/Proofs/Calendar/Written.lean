import Mathlib
import TypedTriples.Proofs.Calendar.DayNumber
import TypedTriples.Proofs.Ruleset.Shapes
import TypedTriples.Proofs.Text.Numeral

/-!
# Written dates

A date is spelled as year, month and day with hyphens between. Every date that
exists is written as one of its spellings: the month and the day with two digits,
and the year with four, or with a sign and as many as it takes.

Main definitions:
* `SpellsField`, `SpellsYear`, `SpellsDate`: the spellings of dates.

Main results:
* `spellsYear_yearText`, `spellsDate_text`: years and dates are written as they are
  spelled.
-/

namespace TypedTriples

open Text (IsDigits)
open Directive (IsRun)

/-! ## Specification -/

/-- A spelling of a number in a field: white space and so many digits, one or two. -/
inductive SpellsField : Nat → Nat → Text → Prop
  | digits {width : Nat} {blank digits : Text} : blank.isBlank = true → width ∈ [1, 2] →
      IsDigits width digits → SpellsField width (Text.toNat digits) (blank ++ digits)

/-- A spelling of a year: up to four digits, or a sign and any number of digits. -/
inductive SpellsYear : Int → Text → Prop
  | unsigned {digits : Text} : IsRun Char.isDigit digits → digits.length ≤ 4 →
      SpellsYear (Text.toNat digits) digits
  | positive {digits : Text} : IsRun Char.isDigit digits →
      SpellsYear (Text.toNat digits) ('+' :: digits)
  | negative {digits : Text} : IsRun Char.isDigit digits →
      SpellsYear (-(Text.toNat digits : Int)) ('-' :: digits)

/-- A spelling of a date of which the day has so many digits. -/
inductive SpellsDate : Nat → Date → Text → Prop
  | parts {width width' : Nat} {y : Int} {m d : Nat} {year month day : Text} : SpellsYear y year →
      SpellsField width' m month → SpellsField width d day →
      SpellsDate width ⟨y, m, d⟩ (year ++ '-' :: month ++ '-' :: day)

/-! ## The widths of the fields -/

theorem Text.IsDigits.isRun {width : Nat} {t : Text} (h : IsDigits width t) (hwidth : 0 < width) :
    IsRun Char.isDigit t :=
  ⟨h.ne_nil hwidth, h.2⟩

namespace Date

variable {date : Date}

theorem month_le (h : date.Valid) : date.month ≤ 12 := by
  obtain ⟨before, length, after, hlengths, hmonth, -, -⟩ := valid_iff_exists.mp h
  have hcount := length_monthLengths (isLeap date.year)
  rw [hlengths, List.length_append, List.length_cons] at hcount
  omega

theorem day_le (h : date.Valid) : date.day ≤ 31 := by
  obtain ⟨before, length, after, hlengths, -, -, hlast⟩ := valid_iff_exists.mp h
  have hall : ∀ leap, ∀ length ∈ monthLengths leap, length ≤ 31 := by decide
  have hmem : length ∈ monthLengths (isLeap date.year) := by
    rw [hlengths]
    exact List.mem_append_right before List.mem_cons_self
  exact hlast.trans (hall _ length hmem)

/-- A year of four digits is written with these, and with nothing else. -/
theorem isDigits_yearText {year : Int} (h : 0 ≤ year ∧ year ≤ 9999) :
    IsDigits 4 (yearText year) ∧ (Text.toNat (yearText year) : Int) = year := by
  have hnumeral : yearText year = Text.ofNatPadded 4 year.toNat := if_pos h
  rw [hnumeral, Text.toNat_ofNatPadded]
  exact ⟨Text.isDigits_ofNatPadded (by decide) (by omega), Int.toNat_of_nonneg h.1⟩

/-- Any other year is written with a sign. -/
theorem yearText_signed {year : Int} (h : year < 0 ∨ 9999 < year) :
    ∃ sign ∈ ['-', '+'], yearText year = sign :: Text.ofNatPadded 4 year.natAbs := by
  refine ⟨if year < 0 then '-' else '+', ?_, if_neg (by omega)⟩
  split <;> simp

theorem isDigits_month (h : date.Valid) : IsDigits 2 (Text.ofNatPadded 2 date.month) := by
  have hmonth := month_le h
  exact Text.isDigits_ofNatPadded (by decide) (by omega)

theorem isDigits_day (h : date.Valid) : IsDigits 2 (Text.ofNatPadded 2 date.day) := by
  have hday := day_le h
  exact Text.isDigits_ofNatPadded (by decide) (by omega)

end Date

/-! ## Written forms -/

theorem spellsField_ofNatPadded {n : Nat} (h : IsDigits 2 (Text.ofNatPadded 2 n)) :
    SpellsField 2 n (Text.ofNatPadded 2 n) := by
  have hfield := @SpellsField.digits 2 [] _ rfl (by decide) h
  rwa [Text.toNat_ofNatPadded] at hfield

theorem spellsYear_yearText (year : Int) : SpellsYear year (Date.yearText year) := by
  by_cases hrange : 0 ≤ year ∧ year ≤ 9999
  · obtain ⟨hdigits, hnumber⟩ := Date.isDigits_yearText hrange
    have hspells := SpellsYear.unsigned (hdigits.isRun (by decide)) hdigits.1.le
    rwa [hnumber] at hspells
  · have hrun : IsRun Char.isDigit (Text.ofNatPadded 4 year.natAbs) :=
      ⟨Text.ofNatPadded_ne_nil 4 _, fun c hc => Text.isDigit_of_mem_ofNatPadded hc⟩
    unfold Date.yearText
    rw [if_neg hrange]
    split
    · have hspells := SpellsYear.negative hrun
      have hneg : -(year.natAbs : Int) = year := by omega
      rwa [Text.toNat_ofNatPadded, hneg] at hspells
    · have hspells := SpellsYear.positive hrun
      have hpos : (year.natAbs : Int) = year := by omega
      rwa [Text.toNat_ofNatPadded, hpos] at hspells

/-- A date is written as it is spelled. -/
theorem spellsDate_text {date : Date} (h : date.Valid) : SpellsDate 2 date date.text :=
  .parts (spellsYear_yearText date.year) (spellsField_ofNatPadded (Date.isDigits_month h))
    (spellsField_ofNatPadded (Date.isDigits_day h))

end TypedTriples
