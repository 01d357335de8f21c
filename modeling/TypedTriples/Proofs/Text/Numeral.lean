import Mathlib
import TypedTriples.Text.Basic

/-!
# Numerals of fixed width

A number below a power of ten has one numeral of that width, and every text of
so many digits is the numeral of the number that it denotes.

Main definitions:
* `Text.IsDigits`: a text of so many ASCII digits.

Main results:
* `Text.toNat_ofNatPadded`, `Text.ofNatPadded_toNat`: numbers and their numerals.
* `Text.isDigits_ofNatPadded`: the width of a numeral.
-/

namespace TypedTriples.Text

/-- A text of so many digits, and of nothing else. -/
def IsDigits (width : Nat) (t : Text) : Prop := t.length = width ∧ ∀ c ∈ t, c.isDigit = true

theorem IsDigits.ne_nil {width : Nat} {t : Text} (h : IsDigits width t) (hwidth : 0 < width) :
    t ≠ [] := by
  rintro rfl
  exact absurd h.1.symm (Nat.ne_of_gt hwidth)

/-! ## The number of a text of digits -/

theorem toNat_eq_ofDigitChars (t : Text) : toNat t = Nat.ofDigitChars 10 t 0 :=
  Nat.ofDigitChars_eq_foldl.symm

theorem toNat_cons (c : Char) (t : Text) :
    toNat (c :: t) = 10 ^ t.length * (c.toNat - 48) + toNat t := by
  have hzero : '0'.toNat = 48 := rfl
  rw [toNat_eq_ofDigitChars, Nat.ofDigitChars_cons, Nat.ofDigitChars_eq_ofDigitChars_zero,
    ← toNat_eq_ofDigitChars, hzero, Nat.mul_zero, Nat.zero_add]

theorem toNat_append (t u : Text) : toNat (t ++ u) = 10 ^ u.length * toNat t + toNat u := by
  rw [toNat_eq_ofDigitChars, Nat.ofDigitChars_append, Nat.ofDigitChars_eq_ofDigitChars_zero,
    ← toNat_eq_ofDigitChars, ← toNat_eq_ofDigitChars]

theorem isDigit_bounds {c : Char} (h : c.isDigit = true) : 48 ≤ c.toNat ∧ c.toNat ≤ 57 := by
  simpa [Char.isDigit, UInt32.le_iff_toNat_le] using h

theorem toNat_lt {t : Text} (h : ∀ c ∈ t, c.isDigit = true) : toNat t < 10 ^ t.length := by
  induction t with
  | nil => exact Nat.one_pos
  | cons c t ih =>
    obtain ⟨hc, ht⟩ := List.forall_mem_cons.mp h
    have hrest := ih ht
    have hbounds := isDigit_bounds hc
    have hdigit : 10 ^ t.length * (c.toNat - 48) ≤ 10 ^ t.length * 9 :=
      Nat.mul_le_mul_left _ (by omega)
    rw [toNat_cons, List.length_cons, Nat.pow_succ]
    omega

theorem eq_of_toNat_eq {t u : Text} (ht : ∀ c ∈ t, c.isDigit = true)
    (hu : ∀ c ∈ u, c.isDigit = true) (hlength : t.length = u.length) (h : toNat t = toNat u) :
    t = u := by
  induction t generalizing u with
  | nil => exact (List.length_eq_zero_iff.mp hlength.symm).symm
  | cons c t ih =>
    cases u with
    | nil => cases hlength
    | cons d u =>
      obtain ⟨hc, ht⟩ := List.forall_mem_cons.mp ht
      obtain ⟨hd, hu⟩ := List.forall_mem_cons.mp hu
      have hlength' : t.length = u.length := Nat.succ.inj hlength
      have hlt := toNat_lt ht
      have hlt' := toNat_lt hu
      rw [toNat_cons, toNat_cons, ← hlength'] at h
      rw [← hlength'] at hlt'
      -- Quotient and remainder by the power of ten are the first digit and the rest.
      have hpos : 0 < 10 ^ t.length := Nat.pow_pos (by decide)
      have hquotient := congrArg (· / 10 ^ t.length) h
      have hremainder := congrArg (· % 10 ^ t.length) h
      simp only [Nat.mul_add_div hpos, Nat.div_eq_of_lt hlt, Nat.div_eq_of_lt hlt',
        Nat.add_zero] at hquotient
      simp only [Nat.mul_add_mod, Nat.mod_eq_of_lt hlt, Nat.mod_eq_of_lt hlt'] at hremainder
      have hcbounds := isDigit_bounds hc
      have hdbounds := isDigit_bounds hd
      have hfirst : c = d := Char.toNat_inj.mp (by omega)
      rw [hfirst, ih ht hu hlength' hremainder]

theorem toNat_replicate_zero (n : Nat) : toNat (List.replicate n '0') = 0 := by
  rw [toNat_eq_ofDigitChars, Nat.ofDigitChars_replicate_zero, Nat.mul_zero]

/-! ## Numerals -/

theorem toNat_ofNat (n : Nat) : toNat (ofNat n) = n := by
  rw [toNat_eq_ofDigitChars]
  exact Nat.ofDigitChars_ten_toDigits

theorem isDigit_of_mem_ofNat {n : Nat} {c : Char} (h : c ∈ ofNat n) : c.isDigit = true :=
  Nat.isDigit_of_mem_toDigits (by decide) le_rfl h

theorem ofNatPadded_eq (width n : Nat) :
    ofNatPadded width n =
      List.replicate (width - (Nat.toDigits 10 n).length) '0' ++ Nat.toDigits 10 n := rfl

theorem isDigit_of_mem_ofNatPadded {width n : Nat} {c : Char} (h : c ∈ ofNatPadded width n) :
    c.isDigit = true := by
  rw [ofNatPadded_eq, List.mem_append] at h
  rcases h with h | h
  · rw [List.eq_of_mem_replicate h]
    rfl
  · exact isDigit_of_mem_ofNat h

/-- **A numeral denotes its number.** -/
theorem toNat_ofNatPadded (width n : Nat) : toNat (ofNatPadded width n) = n := by
  rw [toNat_eq_ofDigitChars, ofNatPadded_eq, Nat.ofDigitChars_append,
    Nat.ofDigitChars_replicate_zero, Nat.mul_zero, Nat.ofDigitChars_ten_toDigits]

theorem isDigits_ofNatPadded {width n : Nat} (hwidth : 0 < width) (h : n < 10 ^ width) :
    IsDigits width (ofNatPadded width n) := by
  have hlength : (Nat.toDigits 10 n).length ≤ width :=
    (Nat.length_toDigits_le_iff (by decide) hwidth).mpr h
  refine ⟨?_, fun c hc => isDigit_of_mem_ofNatPadded hc⟩
  rw [ofNatPadded_eq, List.length_append, List.length_replicate, Nat.sub_add_cancel hlength]

/-- **Digits are the numeral of their number.** -/
theorem ofNatPadded_toNat {width : Nat} {t : Text} (hwidth : 0 < width) (h : IsDigits width t) :
    ofNatPadded width (toNat t) = t := by
  obtain ⟨hlength, hdigits⟩ := h
  have hlt : toNat t < 10 ^ width := hlength ▸ toNat_lt hdigits
  obtain ⟨hlength', hdigits'⟩ := isDigits_ofNatPadded hwidth hlt
  exact eq_of_toNat_eq hdigits' hdigits (hlength'.trans hlength.symm) (toNat_ofNatPadded width _)

/-- Digits without a zero in front are the numeral of their number. -/
theorem ofNat_toNat {t : Text} (hne : t ≠ []) (hdigits : ∀ c ∈ t, c.isDigit = true)
    (hfirst : t.head? ≠ some '0') : ofNat (toNat t) = t := by
  have hpadded := ofNatPadded_toNat (List.length_pos_iff.mpr hne) ⟨rfl, hdigits⟩
  rw [ofNatPadded_eq] at hpadded
  cases hzeros : t.length - (Nat.toDigits 10 (toNat t)).length with
  | zero => rwa [hzeros, List.replicate_zero, List.nil_append] at hpadded
  | succ zeros =>
    rw [hzeros, List.replicate_succ, List.cons_append] at hpadded
    exact absurd (congrArg List.head? hpadded).symm hfirst

/-- A numeral starts with no zero, or the rest would be a shorter one. -/
theorem head?_ofNat_ne {n : Nat} (h : 0 < n) : (ofNat n).head? ≠ some '0' := by
  intro hhead
  obtain ⟨rest, hrest⟩ := List.head?_eq_some_iff.mp hhead
  have hvalue := toNat_ofNat n
  rw [hrest, toNat_cons] at hvalue
  have hzero : '0'.toNat - 48 = 0 := rfl
  rw [hzero, Nat.mul_zero, Nat.zero_add] at hvalue
  have hdigits : ∀ c ∈ rest, c.isDigit = true := fun c hc =>
    isDigit_of_mem_ofNat (hrest ▸ List.mem_cons_of_mem '0' hc)
  have hlt : n < 10 ^ rest.length := hvalue ▸ toNat_lt hdigits
  have hpos : 0 < rest.length := by
    rw [List.length_pos_iff]
    rintro rfl
    rw [List.length_nil, Nat.pow_zero] at hlt
    omega
  have hlength := (Nat.length_toDigits_le_iff (by decide) hpos).mpr hlt
  have hlonger : (Nat.toDigits 10 n).length = rest.length + 1 := congrArg List.length hrest
  omega

/-- The last digit of a numeral is the remainder by ten. -/
theorem getLast?_ofNat_ne {n : Nat} (h : n % 10 ≠ 0) : (ofNat n).getLast? ≠ some '0' := by
  intro hlast
  obtain ⟨front, hfront⟩ := List.getLast?_eq_some_iff.mp hlast
  have hvalue := toNat_ofNat n
  have hzero : toNat ['0'] = 0 := rfl
  rw [hfront, toNat_append, hzero, List.length_singleton, Nat.pow_one, Nat.add_zero] at hvalue
  omega

theorem ofNatPadded_ne_nil (width n : Nat) : ofNatPadded width n ≠ [] := by
  rw [ofNatPadded_eq]
  exact List.append_ne_nil_of_right_ne_nil _ Nat.toDigits_ne_nil

end TypedTriples.Text
