import Mathlib
import TypedTriples.Proofs.Number.Numeral
import TypedTriples.Proofs.Number.Rounding

/-!
# Reading decimal numbers

A text is read as a decimal number when it is a numeral in ASCII digits, of any
length and with any exponent, and the number has the sign and the magnitude of
the numeral.

Main definitions:
* `Number.Numeral.decimal`: the parts of a numeral as a decimal number.
* `Number.ReadsAs`: the double that a text in ASCII digits rounds to.

Main results:
* `Decimal.ofText?_eq_some_iff`: the texts that are read, and as what.
* `Number.SpellsNumeral.amount_decimal`: nothing is lost in reading.
* `Number.SpellsNumeral.ofText?_eq_none_iff`: the numerals that are not read.
* `Number.readsAs_iff`: reading and rounding give the double that a text rounds
  to.
-/

namespace TypedTriples

open Directive (IsRun Stops)
open Number (Numeral SpellsMantissa SpellsNumeral SpellsPower SpellsSign Unsigned)

/-! ## The number of a numeral -/

namespace Number

/-- The digits of a numeral as one integer, with the point counted in the
    exponent. -/
def Numeral.decimal (n : Numeral) : Decimal where
  negative := n.negative
  digits := Text.toNat (n.whole ++ n.fraction)
  exponent := n.power - n.fraction.length

theorem SpellsMantissa.forall_digit {digit : Char → Bool} {m whole fraction : Text}
    (h : SpellsMantissa digit m whole fraction) :
    (∀ c ∈ whole, digit c = true) ∧ ∀ c ∈ fraction, digit c = true := by
  cases h with
  | whole hwhole => exact ⟨hwhole.2, fun _ hc => absurd hc List.not_mem_nil⟩
  | point hwhole hfraction => exact ⟨hwhole.2, hfraction⟩
  | fraction hfraction => exact ⟨fun _ hc => absurd hc List.not_mem_nil, hfraction.2⟩

theorem SpellsNumeral.amount_decimal {t : Text} {n : Numeral}
    (h : SpellsNumeral Char.isDigit t n) : n.decimal.amount = n.amount := by
  obtain ⟨hsign, hmantissa, hpower⟩ := h
  obtain ⟨hwhole, hfraction⟩ := hmantissa.forall_digit
  have hten : (10 : ℚ) ^ n.fraction.length ≠ 0 := by positivity
  rw [Decimal.amount, Numeral.amount, Numeral.decimal, Text.toNat_append,
    digitsValue_of_isDigit hwhole, digitsValue_of_isDigit hfraction, zpow_sub₀ (by norm_num),
    zpow_natCast]
  push_cast
  field_simp

end Number

/-! ## The parts of a text -/

namespace Decimal

theorem readSign_append {s t : Text} {negative : Bool} (hs : SpellsSign s negative)
    (ht : Unsigned t) : readSign (s ++ t) = (negative, t) := by
  cases hs with
  | none =>
    rw [List.nil_append]
    unfold readSign
    split
    · exact absurd rfl ht.2
    · exact absurd rfl ht.1
    · rfl
  | plus | minus => rfl

theorem exists_readSign {t rest : Text} {negative : Bool} (h : readSign t = (negative, rest)) :
    ∃ s, SpellsSign s negative ∧ t = s ++ rest := by
  unfold readSign at h
  split at h
  · obtain ⟨rfl, rfl⟩ := Prod.mk.inj h
    exact ⟨['-'], .minus, rfl⟩
  · obtain ⟨rfl, rfl⟩ := Prod.mk.inj h
    exact ⟨['+'], .plus, rfl⟩
  · obtain ⟨rfl, rfl⟩ := Prod.mk.inj h
    exact ⟨[], .none, rfl⟩

theorem readDigits_append {ds rest : Text} (hds : ∀ c ∈ ds, c.isDigit = true)
    (hrest : Stops Char.isDigit rest) : readDigits (ds ++ rest) = (ds, rest) := by
  rw [readDigits, Directive.takeWhile_append_of_stops hds hrest,
    Directive.dropWhile_append_of_stops hds hrest]

theorem eq_append_of_readDigits {t ds rest : Text} (h : readDigits t = (ds, rest)) :
    t = ds ++ rest ∧ ∀ c ∈ ds, c.isDigit = true := by
  obtain ⟨rfl, rfl⟩ := Prod.mk.inj h
  exact ⟨List.takeWhile_append_dropWhile.symm, fun _ hc => List.mem_takeWhile_imp hc⟩

theorem readFraction_of_head?_ne {t : Text} (h : t.head? ≠ some '.') :
    readFraction t = ([], t) := by
  unfold readFraction
  split
  · exact absurd rfl h
  · rfl

/-- Either there is no point, or the digits after it are read. -/
theorem readFraction_cases (t : Text) :
    readFraction t = ([], t) ∨ ∃ ds rest, t = '.' :: (ds ++ rest) ∧
      (∀ c ∈ ds, c.isDigit = true) ∧ readFraction t = (ds, rest) := by
  by_cases h : t.head? = some '.'
  · obtain ⟨rest, rfl⟩ := List.head?_eq_some_iff.mp h
    obtain ⟨hsplit, hdigits⟩ := eq_append_of_readDigits (t := rest) rfl
    exact .inr ⟨_, _, congrArg ('.' :: ·) hsplit, hdigits, rfl⟩
  · exact .inl (readFraction_of_head?_ne h)

theorem stops_isDigit_cons {c : Char} (h : c.isDigit = false) (t : Text) :
    Stops Char.isDigit (c :: t) :=
  Directive.stops_cons.mpr h

theorem readMantissa {m whole fraction rest : Text}
    (h : SpellsMantissa Char.isDigit m whole fraction) (hrest : Stops Char.isDigit rest)
    (hpoint : rest.head? ≠ some '.') :
    ∃ after, readDigits (m ++ rest) = (whole, after) ∧ readFraction after = (fraction, rest) ∧
      (whole.isEmpty && fraction.isEmpty) = false := by
  cases h with
  | whole hwhole =>
    exact ⟨rest, readDigits_append hwhole.2 hrest, readFraction_of_head?_ne hpoint, by
      simp [hwhole.1]⟩
  | point hwhole hfraction =>
    refine ⟨'.' :: (fraction ++ rest), ?_, readDigits_append hfraction hrest, by simp [hwhole.1]⟩
    rw [List.append_assoc]
    exact readDigits_append hwhole.2 (stops_isDigit_cons rfl _)
  | fraction hfraction =>
    refine ⟨'.' :: (fraction ++ rest), ?_, readDigits_append hfraction.2 hrest, by
      simp [hfraction.1]⟩
    exact readDigits_append (fun _ hc => absurd hc List.not_mem_nil) (stops_isDigit_cons rfl _)

/-- Digits before and after a point, unless there are none, are a mantissa. -/
theorem exists_readMantissa {t whole fraction after rest : Text}
    (hwhole : readDigits t = (whole, after)) (hfraction : readFraction after = (fraction, rest))
    (hsome : (whole.isEmpty && fraction.isEmpty) = false) :
    ∃ m, SpellsMantissa Char.isDigit m whole fraction ∧ t = m ++ rest := by
  obtain ⟨rfl, hdigits⟩ := eq_append_of_readDigits hwhole
  obtain hnone | ⟨ds, r, rfl, hds, hpoint⟩ := readFraction_cases after
  · obtain ⟨rfl, rfl⟩ := Prod.mk.inj (hfraction.symm.trans hnone)
    have hne : whole ≠ [] := by
      rintro rfl
      exact absurd hsome (by decide)
    exact ⟨whole, .whole ⟨hne, hdigits⟩, rfl⟩
  · obtain ⟨rfl, rfl⟩ := Prod.mk.inj (hfraction.symm.trans hpoint)
    by_cases hempty : whole = []
    · have hne : fraction ≠ [] := by
        rintro rfl
        rw [hempty] at hsome
        exact absurd hsome (by decide)
      rw [hempty]
      exact ⟨'.' :: fraction, .fraction ⟨hne, hds⟩, rfl⟩
    · refine ⟨whole ++ '.' :: fraction, .point ⟨hempty, hdigits⟩ hds, ?_⟩
      rw [List.append_assoc, List.cons_append]

theorem signed_toNat {ds : Text} (h : ∀ c ∈ ds, c.isDigit = true) (negative : Bool) :
    (if negative then -(Text.toNat ds : ℤ) else Text.toNat ds) =
      Number.signed negative (Number.digitsValue ds) := by
  rw [Number.digitsValue_of_isDigit h, Number.signed]

theorem readExponent?_cons {c : Char} {t t' ds rest : Text} {negative : Bool}
    (hc : c = 'e' ∨ c = 'E') (hsign : readSign t = (negative, t'))
    (hdigits : readDigits t' = (ds, rest)) :
    readExponent? (c :: t) =
      if ds = [] ∨ rest ≠ [] then none
      else some (Number.signed negative (Number.digitsValue ds)) := by
  have hletter : (c == 'e' || c == 'E') = true := by
    rcases hc with rfl | rfl <;> rfl
  rw [readExponent?, if_pos hletter, hsign]
  dsimp only
  rw [hdigits]
  cases ds with
  | nil => rfl
  | cons d ds =>
    cases rest with
    | nil => rw [if_neg (by simp), ← signed_toNat (eq_append_of_readDigits hdigits).2]
    | cons c rest => rfl

theorem readExponent?_eq_some_iff {t : Text} {power : ℤ} :
    readExponent? t = some power ↔ SpellsPower Char.isDigit t power := by
  constructor
  · intro h
    cases t with
    | nil =>
      cases h
      exact .none
    | cons c t =>
      by_cases hc : c = 'e' ∨ c = 'E'
      · cases hsign : readSign t with
        | mk negative t' =>
          cases hds : readDigits t' with
          | mk ds rest =>
            rw [readExponent?_cons hc hsign hds] at h
            split_ifs at h with hnone
            obtain ⟨hne, hrest⟩ := not_or.mp hnone
            obtain rfl := Option.some.inj h
            obtain ⟨s, hs, rfl⟩ := exists_readSign hsign
            obtain ⟨rfl, hdigits⟩ := eq_append_of_readDigits hds
            rw [not_not.mp hrest, List.append_nil]
            exact .letter hc hs ⟨hne, hdigits⟩
      · rw [readExponent?, if_neg (by simpa using hc)] at h
        cases h
  · intro h
    cases h with
    | none => rfl
    | @letter c s ds negative hc hsign hdigits =>
      have hrun := hdigits.imp fun c _ => Text.isDecimalDigit_of_isDigit
      have hunsigned := Number.unsigned_append_of_isRun hrun []
      have hread := readDigits_append hdigits.2 (show Stops Char.isDigit [] by simp [Stops])
      rw [List.append_nil] at hunsigned hread
      rw [readExponent?_cons hc (readSign_append hsign hunsigned) hread,
        if_neg (by simp [hdigits.1])]

theorem ofText?_of_read {t t' t'' whole fraction rest : Text} {negative : Bool}
    (hsign : readSign t = (negative, t')) (hwhole : readDigits t' = (whole, t''))
    (hfraction : readFraction t'' = (fraction, rest)) :
    ofText? t =
      if whole.isEmpty && fraction.isEmpty then none
      else (readExponent? rest).map fun power =>
        Numeral.decimal ⟨negative, whole, fraction, power⟩ := by
  rw [ofText?, hsign]
  dsimp only
  rw [hwhole]
  dsimp only
  rw [hfraction]
  rfl

/-- **Reading.** The texts that are read are the numerals in ASCII digits. -/
theorem ofText?_eq_some_iff {t : Text} {d : Decimal} :
    ofText? t = some d ↔ ∃ n, SpellsNumeral Char.isDigit t n ∧ n.decimal = d := by
  constructor
  · intro h
    cases hsign : readSign t with
    | mk negative t' =>
      cases hwhole : readDigits t' with
      | mk whole t'' =>
        cases hfraction : readFraction t'' with
        | mk fraction rest =>
          rw [ofText?_of_read hsign hwhole hfraction] at h
          split_ifs at h with hsome
          obtain ⟨power, hpower, rfl⟩ := Option.map_eq_some_iff.mp h
          obtain ⟨s, hs, rfl⟩ := exists_readSign hsign
          obtain ⟨m, hmantissa, rfl⟩ :=
            exists_readMantissa hwhole hfraction (Bool.eq_false_iff.mpr hsome)
          refine ⟨⟨negative, whole, fraction, power⟩, ?_, rfl⟩
          rw [← List.append_assoc]
          exact .intro hs hmantissa (readExponent?_eq_some_iff.mp hpower)
  · rintro ⟨n, hspells, rfl⟩
    obtain @⟨s, m, e, n, hsign, hmantissa, hpower⟩ := hspells
    have hdigit : ∀ c, c.isDigit = true → Text.isDecimalDigit c = true :=
      fun _ => Text.isDecimalDigit_of_isDigit
    have hunsigned := (hmantissa.imp fun c _ => hdigit c).unsigned e
    have hnil : Stops Text.isDecimalDigit [] ∧ ([] : Text).head? ≠ some '.' := by simp [Stops]
    obtain ⟨hstops, hpoint⟩ := (hpower.imp fun c _ => hdigit c).stops fun _ => hnil
    rw [List.append_nil] at hstops hpoint
    obtain ⟨after, hwhole, hfraction, hsome⟩ := readMantissa hmantissa (hstops.imp hdigit) hpoint
    rw [List.append_assoc, ofText?_of_read (readSign_append hsign hunsigned) hwhole hfraction,
      hsome, if_neg Bool.false_ne_true, readExponent?_eq_some_iff.mpr hpower]
    rfl

end Decimal

namespace Number

/-- A numeral is read unless it has digits outside ASCII. -/
theorem SpellsNumeral.ofText?_eq_none_iff {t : Text} {n : Numeral}
    (h : SpellsNumeral Text.isDecimalDigit t n) :
    Decimal.ofText? t = none ↔ ∃ c ∈ t, Text.isDecimalDigit c = true ∧ c.isDigit = false := by
  constructor
  · intro hnone
    by_contra hascii
    have hspells : SpellsNumeral Char.isDigit t n := h.imp fun c hc hdecimal =>
      Bool.not_eq_false _ ▸ fun hdigit => hascii ⟨c, hc, hdecimal, hdigit⟩
    rw [Decimal.ofText?_eq_some_iff.mpr ⟨n, hspells, rfl⟩] at hnone
    cases hnone
  · rintro ⟨c, hc, hdecimal, hdigit⟩
    refine Option.eq_none_iff_forall_ne_some.mpr fun d hd => ?_
    obtain ⟨n', hspells, -⟩ := Decimal.ofText?_eq_some_iff.mp hd
    rcases hspells.mem hc with hascii | hmark
    · rw [hascii] at hdigit
      cases hdigit
    · rw [isDecimalDigit_of_mem_marks hmark] at hdecimal
      cases hdecimal

/-! ## The double that a text rounds to -/

/-- A text is a numeral in ASCII digits, and what it denotes rounds to a double. -/
def ReadsAs (t : Text) (x : Binary64) : Prop :=
  ∃ n, SpellsNumeral Char.isDigit t n ∧ Binary64.RoundsTo n.negative n.amount x

theorem readsAs_iff {t : Text} {x : Binary64} :
    ReadsAs t x ↔ ∃ d, Decimal.ofText? t = some d ∧ d.toBinary64 = x := by
  have hrounds : ∀ n, SpellsNumeral Char.isDigit t n →
      Binary64.RoundsTo n.negative n.amount n.decimal.toBinary64 := fun n hspells =>
    hspells.amount_decimal ▸ n.decimal.roundsTo_toBinary64
  constructor
  · rintro ⟨n, hspells, hx⟩
    exact ⟨n.decimal, Decimal.ofText?_eq_some_iff.mpr ⟨n, hspells, rfl⟩,
      (hrounds n hspells).unique hx⟩
  · rintro ⟨d, hd, rfl⟩
    obtain ⟨n, hspells, rfl⟩ := Decimal.ofText?_eq_some_iff.mp hd
    exact ⟨n, hspells, hrounds n hspells⟩

theorem ReadsAs.unique {t : Text} {x y : Binary64} (hx : ReadsAs t x) (hy : ReadsAs t y) :
    x = y := by
  obtain ⟨d, hd, rfl⟩ := readsAs_iff.mp hx
  obtain ⟨d', hd', rfl⟩ := readsAs_iff.mp hy
  rw [Option.some.inj (hd.symm.trans hd')]

end Number

end TypedTriples
