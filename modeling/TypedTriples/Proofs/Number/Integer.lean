import Mathlib
import TypedTriples.Number.Leading
import TypedTriples.Proofs.Number.Digits
import TypedTriples.Proofs.Text.Trim

/-!
# Written integers

The written form of a value denotes the integer that the value starts with,
however long it is and whatever scripts its digits are from.

Main definitions:
* `Number.SpellsInteger`: the integer that a sign and digits denote.
* `Number.StartsWithInteger`: the sign and the digits that a value starts with.

Main results:
* `leadingInteger?_eq_some_iff`: what is taken from a value is the integer that
  it starts with.
* `integerText_denotes`: the written form denotes that integer, does not depend
  on what follows it and is its own written form.
-/

namespace TypedTriples.Number

open Directive (IsRun Stops)
open Text (isDecimalDigit)

/-! ## Specification -/

/-- A text that consists of an optional sign and digits denotes an integer. -/
inductive SpellsInteger : Text → ℤ → Prop
  | intro {s digits : Text} {negative : Bool} (hsign : SpellsSign s negative)
      (hdigits : IsRun isDecimalDigit digits) :
      SpellsInteger (s ++ digits) (signed negative (digitsValue digits))

/-- A value starts with white space, an optional sign and digits, and no other
    digit follows. -/
inductive StartsWithInteger : Text → Bool → Text → Prop
  | intro {blank s digits rest : Text} {negative : Bool} (hblank : blank.isBlank = true)
      (hsign : SpellsSign s negative) (hdigits : IsRun isDecimalDigit digits)
      (hrest : Stops isDecimalDigit rest) :
      StartsWithInteger (blank ++ (s ++ digits ++ rest)) negative digits

/-! ## The integer at the start of a value -/

theorem StartsWithInteger.isRun {value digits : Text} {negative : Bool}
    (h : StartsWithInteger value negative digits) : IsRun isDecimalDigit digits := by
  obtain ⟨-, -, hdigits, -⟩ := h
  exact hdigits

theorem integerPart?_append {s digits rest : Text} {negative : Bool} (hsign : SpellsSign s negative)
    (hdigits : IsRun isDecimalDigit digits) (hrest : Stops isDecimalDigit rest) :
    integerPart? (s ++ digits ++ rest) = some (s ++ digits) := by
  rw [integerPart?, List.append_assoc, sign_append hsign (unsigned_append_of_isRun hdigits rest)]
  dsimp only
  rw [digits_append hdigits.2 hrest]
  cases digits with
  | nil => exact absurd rfl hdigits.1
  | cons c digits => rfl

/-- What is taken from a text is a sign and all the digits behind it. -/
theorem integerPart?_eq_some_iff {t part : Text} :
    integerPart? t = some part ↔
      ∃ s negative digits rest, SpellsSign s negative ∧ IsRun isDecimalDigit digits ∧
        Stops isDecimalDigit rest ∧ part = s ++ digits ∧ t = part ++ rest := by
  constructor
  · intro h
    obtain ⟨negative, hsign⟩ := spellsSign_sign t
    unfold integerPart? at h
    dsimp only at h
    split at h
    · cases h
    · rename_i taken rest hne hdigits
      obtain rfl := Option.some.inj h
      have htaken : (digits (sign t).2).1 = taken := congrArg Prod.fst hdigits
      have hrest : (digits (sign t).2).2 = rest := congrArg Prod.snd hdigits
      refine ⟨(sign t).1, negative, taken, rest, hsign, ⟨hne, fun c hc => ?_⟩, ?_, rfl, ?_⟩
      · rw [← htaken] at hc
        exact isDecimalDigit_of_mem_digits hc
      · rw [← hrest]
        exact stops_digits _
      · rw [List.append_assoc, ← htaken, ← hrest, digits_append_self, sign_append_self]
  · rintro ⟨s, negative, digits, rest, hsign, hdigits, hrest, rfl, rfl⟩
    exact integerPart?_append hsign hdigits hrest

theorem leadingInteger?_of_startsWithInteger {value digits : Text} {negative : Bool}
    (h : StartsWithInteger value negative digits) :
    ∃ s, SpellsSign s negative ∧ leadingInteger? value = some (s ++ digits) := by
  obtain @⟨blank, s, digits, rest, negative, hblank, hsign, hdigits, hrest⟩ := h
  refine ⟨s, hsign, ?_⟩
  have hstops := hsign.stops_isWhite (stops_isWhite_of_isRun hdigits rest)
  rw [← List.append_assoc] at hstops
  rw [leadingInteger?, Text.trimStart_append hblank hstops]
  exact integerPart?_append hsign hdigits hrest

theorem exists_startsWithInteger {value part : Text} (h : leadingInteger? value = some part) :
    ∃ negative digits, StartsWithInteger value negative digits := by
  obtain ⟨s, negative, digits, rest, hsign, hdigits, hrest, rfl, hvalue⟩ :=
    integerPart?_eq_some_iff.mp h
  rw [← Text.takeWhile_append_trimStart value, hvalue]
  exact ⟨negative, digits, .intro (Text.isBlank_takeWhile value) hsign hdigits hrest⟩

/-! ## The written form -/

/-- The sign of a written form. -/
def minusSign (negative : Bool) : Text := if negative then ['-'] else []

theorem spellsSign_minusSign (negative : Bool) : SpellsSign (minusSign negative) negative := by
  cases negative
  · exact .none
  · exact .minus

theorem minusSign_injective : Function.Injective minusSign := by
  intro negative negative' h
  have hsign := spellsSign_minusSign negative
  rw [h] at hsign
  exact hsign.unique (spellsSign_minusSign negative')

theorem canonicalDigits_of_eq_nil {digits : Text} (h : digits.dropWhile (· == '0') = [])
    (negative : Bool) : canonicalDigits negative digits = ['0'] := by
  rw [canonicalDigits, h]

theorem canonicalDigits_of_ne_nil {digits : Text} (h : digits.dropWhile (· == '0') ≠ [])
    (negative : Bool) :
    canonicalDigits negative digits = minusSign negative ++ digits.dropWhile (· == '0') := by
  unfold canonicalDigits
  split
  · exact absurd (by assumption) h
  · cases negative <;> rfl

theorem canonicalInteger_append {s digits : Text} {negative : Bool} (hsign : SpellsSign s negative)
    (hdigits : IsRun isDecimalDigit digits) :
    canonicalInteger (s ++ digits) = canonicalDigits negative digits := by
  cases hsign with
  | none =>
    have hunsigned := unsigned_append_of_isRun hdigits []
    rw [List.append_nil] at hunsigned
    rw [List.nil_append]
    unfold canonicalInteger
    split
    · exact absurd rfl hunsigned.2
    · exact absurd rfl hunsigned.1
    · rfl
  | plus | minus => rfl

/-- The written form depends on the sign and the digits that the value starts
    with, and on nothing else. -/
theorem integerText_of_startsWithInteger {value digits : Text} {negative : Bool}
    (h : StartsWithInteger value negative digits) :
    integerText value = canonicalDigits negative digits := by
  obtain ⟨s, hsign, hleading⟩ := leadingInteger?_of_startsWithInteger h
  rw [integerText, hleading]
  exact canonicalInteger_append hsign h.isRun

theorem integerText_of_not_startsWithInteger {value : Text}
    (h : ∀ negative digits, ¬ StartsWithInteger value negative digits) :
    integerText value = ['0'] := by
  unfold integerText
  split
  · rename_i part hpart
    obtain ⟨negative, digits, hstarts⟩ := exists_startsWithInteger hpart
    exact absurd hstarts (h negative digits)
  · rfl

/-! ## What the written form denotes -/

theorem spellsInteger_canonicalDigits {digits : Text} (hdigits : IsRun isDecimalDigit digits)
    (negative : Bool) :
    SpellsInteger (canonicalDigits negative digits) (signed negative (digitsValue digits)) := by
  rw [← digitsValue_dropWhile_zero digits]
  by_cases hkept : digits.dropWhile (· == '0') = []
  · rw [canonicalDigits_of_eq_nil hkept, hkept]
    have hzero : signed negative (digitsValue []) = signed false (digitsValue ['0']) := by
      cases negative <;> rfl
    have hrun : IsRun isDecimalDigit ['0'] :=
      ⟨by simp, fun c hc => List.mem_singleton.mp hc ▸ Text.isDecimalDigit_of_isDigit rfl⟩
    rw [hzero]
    exact .intro .none hrun
  · rw [canonicalDigits_of_ne_nil hkept]
    exact .intro (spellsSign_minusSign negative)
      ⟨hkept, fun c hc => hdigits.2 c ((List.dropWhile_sublist _).mem hc)⟩

/-- A text that consists of a sign and digits starts with them. -/
theorem startsWithInteger_append {s digits : Text} {negative : Bool} (hsign : SpellsSign s negative)
    (hdigits : IsRun isDecimalDigit digits) : StartsWithInteger (s ++ digits) negative digits := by
  have hstops : Stops isDecimalDigit [] := by simp [Stops]
  have h := StartsWithInteger.intro (show Text.isBlank [] = true from rfl) hsign hdigits hstops
  rwa [List.nil_append, List.append_nil] at h

theorem StartsWithInteger.unique {value digits digits' : Text} {negative negative' : Bool}
    (h : StartsWithInteger value negative digits) (h' : StartsWithInteger value negative' digits') :
    negative = negative' ∧ digits = digits' := by
  obtain ⟨s, hsign, hleading⟩ := leadingInteger?_of_startsWithInteger h
  obtain ⟨s', hsign', hleading'⟩ := leadingInteger?_of_startsWithInteger h'
  have hunsigned := unsigned_append_of_isRun h.isRun []
  have hunsigned' := unsigned_append_of_isRun h'.isRun []
  rw [List.append_nil] at hunsigned hunsigned'
  have hsplit : (s, digits) = (s', digits') := by
    rw [← sign_append hsign hunsigned, ← sign_append hsign' hunsigned']
    exact congrArg sign (Option.some.inj (hleading.symm.trans hleading'))
  obtain ⟨rfl, rfl⟩ := Prod.mk.inj hsplit
  exact ⟨hsign.unique hsign', rfl⟩

theorem SpellsInteger.unique {t : Text} {z z' : ℤ} (h : SpellsInteger t z)
    (h' : SpellsInteger t z') : z = z' := by
  cases h with
  | @intro s digits negative hsign hdigits =>
    have hstarts := startsWithInteger_append hsign hdigits
    generalize s ++ digits = t at h' hstarts
    cases h' with
    | intro hsign' hdigits' =>
      obtain ⟨rfl, rfl⟩ := hstarts.unique (startsWithInteger_append hsign' hdigits')
      rfl

theorem StartsWithInteger.append {value digits more : Text} {negative : Bool}
    (h : StartsWithInteger value negative digits) (hmore : Stops isDecimalDigit more) :
    StartsWithInteger (value ++ more) negative digits := by
  obtain ⟨hblank, hsign, hdigits, hrest⟩ := h
  rw [List.append_assoc, List.append_assoc _ _ more]
  exact .intro hblank hsign hdigits (Directive.stops_append hrest hmore)

theorem integerText_canonicalDigits {digits : Text} (hdigits : IsRun isDecimalDigit digits)
    (negative : Bool) :
    integerText (canonicalDigits negative digits) = canonicalDigits negative digits := by
  by_cases hkept : digits.dropWhile (· == '0') = []
  · rw [canonicalDigits_of_eq_nil hkept]
    decide
  · have hrun : IsRun isDecimalDigit (digits.dropWhile (· == '0')) :=
      ⟨hkept, fun c hc => hdigits.2 c ((List.dropWhile_sublist _).mem hc)⟩
    have hstarts := startsWithInteger_append (spellsSign_minusSign negative) hrun
    have hagain : (digits.dropWhile (· == '0')).dropWhile (· == '0') =
        digits.dropWhile (· == '0') := List.dropWhile_idempotent _ digits
    rw [canonicalDigits_of_ne_nil hkept, integerText_of_startsWithInteger hstarts,
      canonicalDigits_of_ne_nil (by rwa [hagain]), hagain]

/-- **Written integers.** The written form of a value denotes the integer that
    the value starts with, digit by digit and of any length, whatever follows
    its digits; it is `0` without one. It is its own written form. -/
theorem integerText_denotes (value : Text) :
    (∀ negative digits, StartsWithInteger value negative digits →
      (∀ z, SpellsInteger (integerText value) z ↔ z = signed negative (digitsValue digits)) ∧
        ∀ more, Stops isDecimalDigit more → integerText (value ++ more) = integerText value) ∧
      ((∀ negative digits, ¬ StartsWithInteger value negative digits) →
        integerText value = ['0']) ∧
      integerText (integerText value) = integerText value := by
  refine ⟨fun negative digits hstarts => ⟨fun z => ?_, fun more hmore => ?_⟩,
    integerText_of_not_startsWithInteger, ?_⟩
  · have hspells : SpellsInteger (integerText value) (signed negative (digitsValue digits)) := by
      rw [integerText_of_startsWithInteger hstarts]
      exact spellsInteger_canonicalDigits hstarts.isRun negative
    constructor
    · exact fun hz => hz.unique hspells
    · rintro rfl
      exact hspells
  · rw [integerText_of_startsWithInteger (hstarts.append hmore),
      integerText_of_startsWithInteger hstarts]
  · by_cases h : ∃ negative digits, StartsWithInteger value negative digits
    · obtain ⟨negative, digits, hstarts⟩ := h
      rw [integerText_of_startsWithInteger hstarts]
      exact integerText_canonicalDigits hstarts.isRun negative
    · rw [integerText_of_not_startsWithInteger fun negative digits hstarts =>
        h ⟨negative, digits, hstarts⟩]
      decide

/-- Digits of three scripts behind white space and a sign, with zeros in front
    and text behind. -/
theorem integerText_denotes_mixed_scripts :
    StartsWithInteger "  -00\u0664\uFF127px".toList true "00\u0664\uFF127".toList ∧
      SpellsInteger (integerText "  -00\u0664\uFF127px".toList) (-427) := by
  have hrun : IsRun isDecimalDigit "00\u0664\uFF127".toList :=
    ⟨by decide, List.all_eq_true.mp (by decide +kernel)⟩
  have hrest : Stops isDecimalDigit "px".toList := Directive.stops_cons.mpr (by decide +kernel)
  have hvalue : "  -00\u0664\uFF127px".toList =
      "  ".toList ++ ("-".toList ++ "00\u0664\uFF127".toList ++ "px".toList) := by decide
  have hstarts : StartsWithInteger "  -00\u0664\uFF127px".toList true "00\u0664\uFF127".toList := by
    rw [hvalue]
    exact .intro (by decide) .minus hrun hrest
  exact ⟨hstarts, (((integerText_denotes _).1 _ _ hstarts).1 _).mpr (by decide +kernel)⟩

end TypedTriples.Number
