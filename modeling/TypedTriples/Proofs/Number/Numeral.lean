import Mathlib
import TypedTriples.Number.Decimal
import TypedTriples.Proofs.Number.Integer
import TypedTriples.Proofs.Text.Longest

/-!
# Numerals with point and exponent

A numeral has an optional sign, digits with or without a point, and an optional
exponent. What a value of a floating-point kind counts for is the longest
numeral that it starts with, and `Decimal.ofText?` reads a numeral in ASCII
digits exactly.

Main definitions:
* `Number.Numeral`: the parts of a numeral; `Numeral.amount` is the magnitude
  that they denote.
* `Number.SpellsNumeral`: the texts of a numeral in the digits of a class.
* `Number.StartsWithNumeral`: the longest numeral that a value starts with.

Main results:
* `leadingFloat?_eq_some_iff`: what is taken from a value is the longest numeral
  that it starts with.
* `ofText?_of_spellsNumeral`, `spellsNumeral_of_ofText?`: the numerals in ASCII
  digits are read, with their sign and magnitude, and nothing else is.
-/

namespace TypedTriples.Number

open Directive (IsRun Stops)
open Text (isDecimalDigit)

/-! ## Specification -/

/-- The sign of a numeral, its digits before and after the point, and its
    exponent. -/
structure Numeral where
  negative : Bool
  whole : Text
  fraction : Text
  power : ℤ

/-- The magnitude that the parts of a numeral denote. -/
def Numeral.amount (n : Numeral) : ℚ :=
  (digitsValue n.whole + digitsValue n.fraction / 10 ^ n.fraction.length) * 10 ^ n.power

section Grammar

variable (digit : Char → Bool)

/-- Digits with or without a point, or a point and digits. -/
inductive SpellsMantissa : Text → Text → Text → Prop
  | whole {whole : Text} (hwhole : IsRun digit whole) : SpellsMantissa whole whole []
  | point {whole fraction : Text} (hwhole : IsRun digit whole)
      (hfraction : ∀ c ∈ fraction, digit c = true) :
      SpellsMantissa (whole ++ '.' :: fraction) whole fraction
  | fraction {fraction : Text} (hfraction : IsRun digit fraction) :
      SpellsMantissa ('.' :: fraction) [] fraction

/-- A letter, an optional sign and digits; or nothing, for zero. -/
inductive SpellsPower : Text → ℤ → Prop
  | none : SpellsPower [] 0
  | letter {c : Char} {s digits : Text} {negative : Bool} (hc : c = 'e' ∨ c = 'E')
      (hsign : SpellsSign s negative) (hdigits : IsRun digit digits) :
      SpellsPower (c :: (s ++ digits)) (signed negative (digitsValue digits))

/-- A text consists of the parts of a numeral. -/
inductive SpellsNumeral : Text → Numeral → Prop
  | intro {s mantissa exponent : Text} {n : Numeral} (hsign : SpellsSign s n.negative)
      (hmantissa : SpellsMantissa digit mantissa n.whole n.fraction)
      (hpower : SpellsPower digit exponent n.power) :
      SpellsNumeral (s ++ mantissa ++ exponent) n

end Grammar

/-- A value starts with white space and a numeral, and with no longer one. -/
inductive StartsWithNumeral : Text → Text → Numeral → Prop
  | intro {blank text rest : Text} {n : Numeral} (hblank : blank.isBlank = true)
      (hspells : SpellsNumeral isDecimalDigit text n)
      (hlongest : ∀ longer n', longer <+: text ++ rest → SpellsNumeral isDecimalDigit longer n' →
        longer.length ≤ text.length) :
      StartsWithNumeral (blank ++ (text ++ rest)) text n

/-! ## Characters -/

/-- The characters of a numeral other than its digits. -/
def marks : List Char := ['+', '-', '.', 'e', 'E']

theorem isDecimalDigit_of_mem_marks {c : Char} (h : c ∈ marks) : isDecimalDigit c = false := by
  simp only [marks, List.mem_cons, List.not_mem_nil, or_false] at h
  rcases h with rfl | rfl | rfl | rfl | rfl <;> decide +kernel

section Classes

variable {digit digit' : Char → Bool} {t whole fraction : Text} {power : ℤ} {n : Numeral}

theorem SpellsSign.mem_marks {negative : Bool} (h : SpellsSign t negative) {c : Char}
    (hc : c ∈ t) : c ∈ marks := by
  cases h with
  | none => cases hc
  | plus | minus =>
    obtain rfl := List.mem_singleton.mp hc
    decide

theorem SpellsMantissa.mem (h : SpellsMantissa digit t whole fraction) {c : Char} (hc : c ∈ t) :
    digit c = true ∨ c ∈ marks := by
  cases h with
  | whole hwhole => exact .inl (hwhole.2 c hc)
  | point hwhole hfraction =>
    rcases List.mem_append.mp hc with hc | hc
    · exact .inl (hwhole.2 c hc)
    · rcases List.mem_cons.mp hc with rfl | hc
      · exact .inr (by decide)
      · exact .inl (hfraction c hc)
  | fraction hfraction =>
    rcases List.mem_cons.mp hc with rfl | hc
    · exact .inr (by decide)
    · exact .inl (hfraction.2 c hc)

theorem SpellsPower.mem (h : SpellsPower digit t power) {c : Char} (hc : c ∈ t) :
    digit c = true ∨ c ∈ marks := by
  cases h with
  | none => cases hc
  | letter hletter hsign hdigits =>
    rcases List.mem_cons.mp hc with rfl | hc
    · rcases hletter with rfl | rfl <;> exact .inr (by decide)
    · rcases List.mem_append.mp hc with hc | hc
      · exact .inr (hsign.mem_marks hc)
      · exact .inl (hdigits.2 c hc)

theorem SpellsNumeral.mem (h : SpellsNumeral digit t n) {c : Char} (hc : c ∈ t) :
    digit c = true ∨ c ∈ marks := by
  obtain ⟨hsign, hmantissa, hpower⟩ := h
  rcases List.mem_append.mp hc with hc | hc
  · rcases List.mem_append.mp hc with hc | hc
    · exact .inr (hsign.mem_marks hc)
    · exact hmantissa.mem hc
  · exact hpower.mem hc

/-- The class of the digits may be changed. -/
theorem SpellsMantissa.imp (h : SpellsMantissa digit t whole fraction)
    (himp : ∀ c ∈ t, digit c = true → digit' c = true) :
    SpellsMantissa digit' t whole fraction := by
  cases h with
  | whole hwhole => exact .whole (hwhole.imp himp)
  | point hwhole hfraction =>
    refine .point (hwhole.imp fun c hc => himp c ?_) fun c hc => himp c ?_ (hfraction c hc)
    · exact List.mem_append_left _ hc
    · exact List.mem_append_right _ (List.mem_cons_of_mem _ hc)
  | fraction hfraction =>
    exact .fraction (hfraction.imp fun c hc => himp c (List.mem_cons_of_mem _ hc))

theorem SpellsPower.imp (h : SpellsPower digit t power)
    (himp : ∀ c ∈ t, digit c = true → digit' c = true) : SpellsPower digit' t power := by
  cases h with
  | none => exact .none
  | letter hc hsign hdigits =>
    exact .letter hc hsign (hdigits.imp fun c hc =>
      himp c (List.mem_cons_of_mem _ (List.mem_append_right _ hc)))

theorem SpellsNumeral.imp (h : SpellsNumeral digit t n)
    (himp : ∀ c ∈ t, digit c = true → digit' c = true) : SpellsNumeral digit' t n := by
  obtain ⟨hsign, hmantissa, hpower⟩ := h
  refine .intro hsign (hmantissa.imp fun c hc => himp c ?_) (hpower.imp fun c hc => himp c ?_)
  · exact List.mem_append_left _ (List.mem_append_right _ hc)
  · exact List.mem_append_right _ hc

end Classes

/-! ## Where the parts start -/

theorem stops_point (t : Text) : Stops isDecimalDigit ('.' :: t) :=
  Directive.stops_cons.mpr (isDecimalDigit_of_mem_marks (by decide))

/-- A mantissa starts with a digit or the point. -/
theorem SpellsMantissa.unsigned {m whole fraction : Text}
    (h : SpellsMantissa isDecimalDigit m whole fraction) (rest : Text) : Unsigned (m ++ rest) := by
  cases h with
  | whole hwhole => exact unsigned_append_of_isRun hwhole rest
  | point hwhole hfraction =>
    rw [List.append_assoc]
    exact unsigned_append_of_isRun hwhole _
  | fraction hfraction => exact unsigned_cons (by decide) (by decide) _

theorem SpellsPower.stops {e : Text} {power : ℤ} (h : SpellsPower isDecimalDigit e power)
    {rest : Text} (hrest : e = [] → Stops isDecimalDigit rest ∧ rest.head? ≠ some '.') :
    Stops isDecimalDigit (e ++ rest) ∧ (e ++ rest).head? ≠ some '.' := by
  cases h with
  | none => exact hrest rfl
  | letter hc hsign hdigits =>
    rcases hc with rfl | rfl <;>
      exact ⟨Directive.stops_cons.mpr (isDecimalDigit_of_mem_marks (by decide)), by simp⟩

theorem SpellsMantissa.stops_isWhite {m whole fraction : Text}
    (h : SpellsMantissa isDecimalDigit m whole fraction) (rest : Text) :
    Stops Text.isWhite (m ++ rest) := by
  cases h with
  | whole hwhole => exact stops_isWhite_of_isRun hwhole rest
  | point hwhole hfraction =>
    rw [List.append_assoc]
    exact stops_isWhite_of_isRun hwhole _
  | fraction hfraction => exact Directive.stops_cons.mpr (by decide)

theorem SpellsNumeral.stops_isWhite {t : Text} {n : Numeral} (h : SpellsNumeral isDecimalDigit t n)
    (rest : Text) : Stops Text.isWhite (t ++ rest) := by
  obtain ⟨hsign, hmantissa, hpower⟩ := h
  rw [List.append_assoc, List.append_assoc]
  exact hsign.stops_isWhite (hmantissa.stops_isWhite _)

/-! ## What is taken from a value -/

theorem fraction_of_head?_ne {t : Text} (h : t.head? ≠ some '.') : fraction t = ([], t) := by
  unfold fraction
  split
  · exact absurd rfl h
  · rfl

theorem fraction_point {ds rest : Text} (hds : ∀ c ∈ ds, isDecimalDigit c = true)
    (hrest : Stops isDecimalDigit rest) : fraction ('.' :: (ds ++ rest)) = ('.' :: ds, rest) := by
  rw [fraction, digits_append hds hrest]

/-- Either there is no point, or the digits after it are taken. -/
theorem fraction_cases (t : Text) :
    fraction t = ([], t) ∨ ∃ ds rest, t = '.' :: (ds ++ rest) ∧
      (∀ c ∈ ds, isDecimalDigit c = true) ∧ fraction t = ('.' :: ds, rest) := by
  by_cases h : t.head? = some '.'
  · obtain ⟨rest, rfl⟩ := List.head?_eq_some_iff.mp h
    refine .inr ⟨(digits rest).1, (digits rest).2, ?_, fun _ => isDecimalDigit_of_mem_digits, rfl⟩
    rw [digits_append_self]
  · exact .inl (fraction_of_head?_ne h)

theorem mantissa?_of_isRun {whole rest : Text} (hwhole : IsRun isDecimalDigit whole)
    (hrest : Stops isDecimalDigit rest) :
    mantissa? (whole ++ rest) = some (whole ++ (fraction rest).1, (fraction rest).2) := by
  rw [mantissa?, digits_append hwhole.2 hrest]
  cases whole with
  | nil => exact absurd rfl hwhole.1
  | cons c whole => rfl

theorem mantissa?_point {ds rest : Text} (hds : IsRun isDecimalDigit ds)
    (hrest : Stops isDecimalDigit rest) :
    mantissa? ('.' :: (ds ++ rest)) = some ('.' :: ds, rest) := by
  rw [mantissa?, digits_of_stops (stops_point _)]
  dsimp only
  rw [fraction_point hds.2 hrest]
  cases ds with
  | nil => exact absurd rfl hds.1
  | cons c ds => rfl

theorem mantissa?_append {m whole frac rest : Text}
    (h : SpellsMantissa isDecimalDigit m whole frac) (hrest : Stops isDecimalDigit rest)
    (hpoint : rest.head? ≠ some '.') : mantissa? (m ++ rest) = some (m, rest) := by
  cases h with
  | whole hwhole =>
    rw [mantissa?_of_isRun hwhole hrest, fraction_of_head?_ne hpoint, List.append_nil]
  | point hwhole hfraction =>
    rw [List.append_assoc, List.cons_append, mantissa?_of_isRun hwhole (stops_point _),
      fraction_point hfraction hrest]
  | fraction hfraction => exact mantissa?_point hfraction hrest

theorem isRun_append_digits {ds : Text} (h : IsRun isDecimalDigit ds) (rest : Text) :
    IsRun isDecimalDigit (ds ++ (digits rest).1) :=
  ⟨List.append_ne_nil_of_left_ne_nil h.1 _,
    List.forall_mem_append.mpr ⟨h.2, fun _ hc => isDecimalDigit_of_mem_digits hc⟩⟩

/-- Whatever follows a mantissa, no less than the mantissa is taken. -/
theorem exists_mantissa?_append {m whole frac : Text}
    (h : SpellsMantissa isDecimalDigit m whole frac) (rest : Text) :
    ∃ more after, mantissa? (m ++ rest) = some (m ++ more, after) := by
  -- The digits that follow belong to the last run of the mantissa.
  have hsplit := digits_append_self rest
  cases h with
  | whole hwhole =>
    rw [← hsplit, ← List.append_assoc,
      mantissa?_of_isRun (isRun_append_digits hwhole rest) (stops_digits rest), List.append_assoc]
    exact ⟨_, _, rfl⟩
  | point hwhole hfraction =>
    have hdigits : ∀ c ∈ frac ++ (digits rest).1, isDecimalDigit c = true :=
      List.forall_mem_append.mpr ⟨hfraction, fun _ hc => isDecimalDigit_of_mem_digits hc⟩
    rw [← hsplit, List.append_assoc, List.cons_append, ← List.append_assoc frac,
      mantissa?_of_isRun hwhole (stops_point _), fraction_point hdigits (stops_digits rest),
      ← List.cons_append, ← List.append_assoc]
    exact ⟨_, _, rfl⟩
  | fraction hfraction =>
    rw [← hsplit, List.cons_append, ← List.append_assoc,
      mantissa?_point (isRun_append_digits hfraction rest) (stops_digits rest), ← List.cons_append]
    exact ⟨_, _, rfl⟩

theorem spellsMantissa_of_mantissa? {t m after : Text} (h : mantissa? t = some (m, after)) :
    ∃ whole frac, SpellsMantissa isDecimalDigit m whole frac ∧ t = m ++ after := by
  have hsplit := digits_append_self t
  have hdigits : ∀ c ∈ (digits t).1, isDecimalDigit c = true :=
    fun _ => isDecimalDigit_of_mem_digits
  by_cases hnone : (digits t).1 = []
  · rw [mantissa?, digits_of_fst_eq_nil hnone] at h
    dsimp only at h
    obtain hfraction | ⟨ds, rest, rfl, hds, hfraction⟩ := fraction_cases t
    · rw [hfraction] at h
      cases h
    · rw [hfraction] at h
      cases ds with
      | nil => cases h
      | cons c ds =>
        obtain ⟨rfl, rfl⟩ := Prod.mk.inj (Option.some.inj h)
        exact ⟨_, _, .fraction ⟨List.cons_ne_nil c ds, hds⟩, rfl⟩
  · have hstops := stops_digits t
    generalize (digits t).1 = whole at hsplit hdigits hnone
    generalize (digits t).2 = rest at hsplit hstops
    obtain rfl := hsplit
    rw [mantissa?_of_isRun ⟨hnone, hdigits⟩ hstops] at h
    obtain ⟨rfl, rfl⟩ := Prod.mk.inj (Option.some.inj h)
    obtain hfraction | ⟨ds, after, rfl, hds, hfraction⟩ := fraction_cases rest
    · rw [hfraction, List.append_nil]
      exact ⟨_, _, .whole ⟨hnone, hdigits⟩, rfl⟩
    · rw [hfraction]
      refine ⟨_, _, .point ⟨hnone, hdigits⟩ hds, ?_⟩
      rw [List.append_assoc, List.cons_append]

/-- An integer is taken with the digits that follow. -/
theorem integerPart?_append_digits {s ds : Text} {negative : Bool} (hsign : SpellsSign s negative)
    (hdigits : IsRun isDecimalDigit ds) (rest : Text) :
    integerPart? (s ++ ds ++ rest) = some (s ++ ds ++ (digits rest).1) := by
  have htaken := integerPart?_append hsign (isRun_append_digits hdigits rest) (stops_digits rest)
  simp only [List.append_assoc, digits_append_self] at htaken ⊢
  exact htaken

/-- An exponent is taken whole, with the digits that follow. -/
theorem exists_exponent_append {e : Text} {power : ℤ} (h : SpellsPower isDecimalDigit e power)
    (rest : Text) : ∃ more, exponent (e ++ rest) = e ++ more := by
  cases h with
  | none => exact ⟨exponent rest, rfl⟩
  | @letter c s ds negative hc hsign hdigits =>
    have hletter : (c == 'e' || c == 'E') = true := by
      rcases hc with rfl | rfl <;> rfl
    refine ⟨(digits rest).1, ?_⟩
    rw [List.cons_append, exponent, if_pos hletter, integerPart?_append_digits hsign hdigits]
    rfl

theorem spellsPower_exponent (t : Text) :
    ∃ power rest, SpellsPower isDecimalDigit (exponent t) power ∧ t = exponent t ++ rest := by
  cases t with
  | nil => exact ⟨0, [], .none, rfl⟩
  | cons c t =>
    unfold exponent
    dsimp only
    split_ifs with hletter
    · cases hpart : integerPart? t with
      | none => exact ⟨0, c :: t, .none, rfl⟩
      | some power =>
        obtain ⟨s, negative, ds, rest, hsign, hdigits, -, rfl, rfl⟩ :=
          integerPart?_eq_some_iff.mp hpart
        exact ⟨_, rest, .letter (by simpa using hletter) hsign hdigits, rfl⟩
    · exact ⟨0, c :: t, .none, rfl⟩

theorem floatPart?_eq (t : Text) :
    floatPart? t =
      (mantissa? (sign t).2).map fun part => (sign t).1 ++ part.1 ++ exponent part.2 := rfl

theorem spellsNumeral_of_floatPart? {t text : Text} (h : floatPart? t = some text) :
    ∃ n rest, SpellsNumeral isDecimalDigit text n ∧ t = text ++ rest := by
  rw [floatPart?_eq] at h
  obtain ⟨⟨m, after⟩, hm, rfl⟩ := Option.map_eq_some_iff.mp h
  obtain ⟨negative, hsign⟩ := spellsSign_sign t
  obtain ⟨whole, frac, hmantissa, hafter⟩ := spellsMantissa_of_mantissa? hm
  obtain ⟨power, rest, hpower, hrest⟩ := spellsPower_exponent after
  refine ⟨⟨negative, whole, frac, power⟩, rest, .intro hsign hmantissa hpower, ?_⟩
  rw [List.append_assoc, List.append_assoc, ← hrest, ← hafter, sign_append_self]

/-- Whatever follows a numeral, no less than the numeral is taken. -/
theorem exists_floatPart?_append {text : Text} {n : Numeral}
    (h : SpellsNumeral isDecimalDigit text n) (rest : Text) :
    ∃ more, floatPart? (text ++ rest) = some (text ++ more) := by
  obtain @⟨s, m, e, n, hsign, hmantissa, hpower⟩ := h
  rw [List.append_assoc, List.append_assoc, floatPart?_eq,
    sign_append hsign (hmantissa.unsigned _)]
  by_cases he : e = []
  · obtain ⟨more, after, hm⟩ := exists_mantissa?_append hmantissa (e ++ rest)
    refine ⟨more ++ exponent after, ?_⟩
    rw [hm, Option.map_some, he, List.append_nil]
    simp only [List.append_assoc]
  · obtain ⟨hstops, hpoint⟩ := hpower.stops fun hnil => absurd hnil he
    obtain ⟨more, hmore⟩ := exists_exponent_append hpower rest
    refine ⟨more, ?_⟩
    rw [mantissa?_append hmantissa hstops hpoint, Option.map_some, hmore]
    simp only [List.append_assoc]

/-- What is taken from a text is the longest numeral that it starts with. -/
theorem findsLongest_floatPart? (t : Text) :
    Text.FindsLongest (fun text => ∃ n, SpellsNumeral isDecimalDigit text n) t (floatPart? t) := by
  refine Text.findsLongest_of_extends (fun t text h => ?_) (fun text rest => ?_) t
  · obtain ⟨n, rest, hspells, rfl⟩ := spellsNumeral_of_floatPart? h
    exact ⟨⟨n, hspells⟩, List.prefix_append text rest⟩
  · rintro ⟨n, hspells⟩
    exact exists_floatPart?_append hspells rest

/-- **The leading numeral.** What is taken from a value is the longest numeral that it
    starts with. -/
theorem leadingFloat?_eq_some_iff {value text : Text} :
    leadingFloat? value = some text ↔ ∃ n, StartsWithNumeral value text n := by
  constructor
  · intro h
    obtain ⟨⟨n, hspells⟩, ⟨rest, hrest⟩, hlongest⟩ :=
      ((findsLongest_floatPart? value.trimStart).eq_some_iff text).mp h
    refine ⟨n, ?_⟩
    rw [← Text.takeWhile_append_trimStart value, ← hrest]
    refine .intro (Text.isBlank_takeWhile value) hspells fun longer n' hlonger hspells' => ?_
    exact hlongest longer ⟨n', hspells'⟩ (hrest ▸ hlonger)
  · rintro ⟨n, hstarts⟩
    obtain @⟨blank, text, rest, n, hblank, hspells, hlongest⟩ := hstarts
    rw [leadingFloat?, Text.trimStart_append hblank (hspells.stops_isWhite rest)]
    refine ((findsLongest_floatPart? _).eq_some_iff text).mpr ⟨⟨n, hspells⟩, ?_, ?_⟩
    · exact List.prefix_append text rest
    · rintro longer ⟨n', hspells'⟩ hlonger
      exact hlongest longer n' hlonger hspells'

end TypedTriples.Number
