import Mathlib
import TypedTriples.Number.Leading
import TypedTriples.Proofs.Ruleset.Shapes
import TypedTriples.Proofs.Text.Numeral

/-!
# Signs and digits

What numerals are made of: an optional sign and a run of decimal digits of any
script. Here it is said what they are and what they are worth, and that the
scanners of `Number` take them whole.

Main definitions:
* `Number.SpellsSign`: an optional sign.
* `Number.digitsValue`: the number that digits of any script denote.

Main results:
* `sign_append`, `digits_append`: signs and digits are taken whole.
* `digitsValue_of_isDigit`: for ASCII digits, the number is that of
  `Text.toNat`.
-/

namespace TypedTriples

open Directive (IsRun Stops)

/-! ## Characters -/

namespace Text

theorem digitValue?_of_isDigit {c : Char} (h : c.isDigit = true) :
    digitValue? c = some (c.toNat - 48) := by
  have hbounds := isDigit_bounds h
  have hzeros : digitZeros = 48 :: digitZeros.tail := rfl
  have hfirst : (decide (48 ≤ c.toNat) && decide (c.toNat < 48 + 10)) = true := by
    simp
    omega
  rw [digitValue?, hzeros, List.find?_cons, hfirst, Option.map_some]

theorem isDecimalDigit_of_isDigit {c : Char} (h : c.isDigit = true) : isDecimalDigit c = true := by
  rw [isDecimalDigit, digitValue?_of_isDigit h, Option.isSome_some]

/-- A digit stands at its distance from the zero of its script. -/
theorem exists_of_isDecimalDigit {c : Char} (h : isDecimalDigit c = true) :
    ∃ first ∈ digitZeros, ∃ place < 10, c = Char.ofNat (first + place) := by
  rw [isDecimalDigit, digitValue?, Option.isSome_map, List.find?_isSome] at h
  obtain ⟨first, hfirst, hbounds⟩ := h
  simp only [Bool.and_eq_true, decide_eq_true_eq] at hbounds
  refine ⟨first, hfirst, c.toNat - first, by omega, ?_⟩
  rw [Nat.add_sub_cancel' hbounds.1, Char.ofNat_toNat]

/-- No digit is white space. -/
theorem isWhite_of_isDecimalDigit {c : Char} (h : isDecimalDigit c = true) : isWhite c = false := by
  have htable : ∀ first ∈ digitZeros, ∀ place < 10,
      isWhite (Char.ofNat (first + place)) = false := by
    decide +kernel
  obtain ⟨first, hfirst, place, hplace, rfl⟩ := exists_of_isDecimalDigit h
  exact htable first hfirst place hplace

theorem isRun_ofNat (n : Nat) : IsRun Char.isDigit (ofNat n) :=
  ⟨Nat.toDigits_ne_nil, fun _ => isDigit_of_mem_ofNat⟩

end Text

namespace Number

open Text (isDecimalDigit)

/-! ## Signs -/

/-- A sign or none, and whether it is a minus. -/
inductive SpellsSign : Text → Bool → Prop
  | none : SpellsSign [] false
  | plus : SpellsSign ['+'] false
  | minus : SpellsSign ['-'] true

theorem SpellsSign.unique {s : Text} {negative negative' : Bool} (h : SpellsSign s negative)
    (h' : SpellsSign s negative') : negative = negative' := by
  cases h <;> cases h' <;> rfl

/-- A text that does not start with a sign. -/
def Unsigned (t : Text) : Prop := t.head? ≠ some '+' ∧ t.head? ≠ some '-'

theorem spellsSign_sign (t : Text) : ∃ negative, SpellsSign (sign t).1 negative := by
  unfold sign
  split
  · exact ⟨_, .plus⟩
  · exact ⟨_, .minus⟩
  · exact ⟨_, .none⟩

theorem sign_append_self (t : Text) : (sign t).1 ++ (sign t).2 = t := by
  unfold sign
  split <;> rfl

theorem sign_of_unsigned {t : Text} (h : Unsigned t) : sign t = ([], t) := by
  unfold sign
  split
  · exact absurd rfl h.1
  · exact absurd rfl h.2
  · rfl

/-- A sign is taken from what it stands before. -/
theorem sign_append {s t : Text} {negative : Bool} (hs : SpellsSign s negative)
    (ht : Unsigned t) : sign (s ++ t) = (s, t) := by
  cases hs with
  | none => exact sign_of_unsigned ht
  | plus | minus => rfl

theorem unsigned_cons {c : Char} (hplus : c ≠ '+') (hminus : c ≠ '-') (t : Text) :
    Unsigned (c :: t) :=
  ⟨fun h => hplus (Option.some.inj h), fun h => hminus (Option.some.inj h)⟩

/-! ## Runs of digits -/

theorem unsigned_append_of_isRun {digits : Text} (h : IsRun isDecimalDigit digits) (rest : Text) :
    Unsigned (digits ++ rest) := by
  obtain ⟨c, tail, rfl⟩ := List.exists_cons_of_ne_nil h.1
  have hc := h.2 c List.mem_cons_self
  refine unsigned_cons ?_ ?_ (tail ++ rest)
  · rintro rfl
    exact absurd hc (by decide)
  · rintro rfl
    exact absurd hc (by decide)

theorem digits_append {taken rest : Text} (htaken : ∀ c ∈ taken, isDecimalDigit c = true)
    (hrest : Stops isDecimalDigit rest) : digits (taken ++ rest) = (taken, rest) := by
  rw [digits, Directive.takeWhile_append_of_stops htaken hrest,
    Directive.dropWhile_append_of_stops htaken hrest]

theorem digits_of_stops {t : Text} (h : Stops isDecimalDigit t) : digits t = ([], t) :=
  digits_append (fun _ hc => absurd hc List.not_mem_nil) h

theorem digits_append_self (t : Text) : (digits t).1 ++ (digits t).2 = t :=
  List.takeWhile_append_dropWhile

theorem digits_of_fst_eq_nil {t : Text} (h : (digits t).1 = []) : digits t = ([], t) := by
  have hsplit := digits_append_self t
  rw [h] at hsplit
  exact Prod.ext h hsplit

theorem isDecimalDigit_of_mem_digits {t : Text} {c : Char} (h : c ∈ (digits t).1) :
    isDecimalDigit c = true :=
  List.mem_takeWhile_imp h

theorem stops_digits (t : Text) : Stops isDecimalDigit (digits t).2 :=
  Directive.stops_dropWhile isDecimalDigit t

theorem stops_isWhite_of_isRun {digits : Text} (h : IsRun isDecimalDigit digits) (rest : Text) :
    Stops Text.isWhite (digits ++ rest) := by
  obtain ⟨c, tail, rfl⟩ := List.exists_cons_of_ne_nil h.1
  exact Directive.stops_cons.mpr (Text.isWhite_of_isDecimalDigit (h.2 c List.mem_cons_self))

theorem SpellsSign.stops_isWhite {s t : Text} {negative : Bool} (hs : SpellsSign s negative)
    (ht : Stops Text.isWhite t) : Stops Text.isWhite (s ++ t) := by
  cases hs with
  | none => exact ht
  | plus | minus => exact Directive.stops_cons.mpr (by decide)

/-! ## Values -/

/-- The number that decimal digits of any script denote, most significant
    first. -/
def digitsValue (digits : Text) : ℕ :=
  digits.foldl (fun n c => 10 * n + (Text.digitValue? c).getD 0) 0

/-- The integer with a sign and a magnitude. -/
def signed (negative : Bool) (n : ℕ) : ℤ := if negative then -n else n

/-- Zeros in front do not count. -/
theorem digitsValue_dropWhile_zero (digits : Text) :
    digitsValue (digits.dropWhile (· == '0')) = digitsValue digits := by
  induction digits with
  | nil => rfl
  | cons c digits ih =>
    by_cases hc : c = '0'
    · subst hc
      exact ih
    · rw [List.dropWhile_cons_of_neg (by simpa using hc)]

theorem digitsValue_of_isDigit {digits : Text} (h : ∀ c ∈ digits, c.isDigit = true) :
    digitsValue digits = Text.toNat digits := by
  refine List.foldl_ext _ _ _ fun n c hc => ?_
  rw [Text.digitValue?_of_isDigit (h c hc)]
  rfl

end Number

end TypedTriples
