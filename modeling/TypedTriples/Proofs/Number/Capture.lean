import Mathlib
import TypedTriples.Proofs.Number.Decimal
import TypedTriples.Proofs.Text.Expression

/-!
# Leading numbers as captures

The leading number of a value is what one of two regular expressions captures of
it behind white space: `\s*([+-]?\d+)` for integers and
`\s*([+-]?(?:\d+\.?\d*|\.\d+)(?:[eE][+-]?\d+)?)` for numbers with point and
exponent. They are tried in an order of preference, and the first way to match
counts. For these two it is the longest: whatever a part takes, the part behind it
does not start with that or never fails, so that nothing is given back.

Main definitions:
* `Number.integerExpression`, `Number.floatExpression`: the two expressions.

Main results:
* `matches_integerExpression_iff`, `matches_floatExpression_iff`: they match the
  integers and the numerals.
* `capture?_integerExpression`, `capture?_floatExpression`: what they capture is
  what is taken from a value.
* `captures_longest`: what is taken is the longest match, and it is read as a
  number unless it has digits outside ASCII.
-/

namespace TypedTriples.Number

open Directive (IsRun Stops)
open Text (FindsLongest IsLongest isDecimalDigit)
open Expression (atLeastOne matches_atLeastOne_iff optional)

/-! ## Specification -/

/-- The class `[+-]`. -/
def isSign (c : Char) : Bool := c == '+' || c == '-'

/-- The class `\.`. -/
def isPoint (c : Char) : Bool := c == '.'

/-- The class `[eE]`. -/
def isExponentLetter (c : Char) : Bool := c == 'e' || c == 'E'

/-- A sign or none, `[+-]?`, in front of an expression. -/
def signedExpression (e : Expression) : Expression := .both (optional (.one isSign)) e

/-- The expression for integers, `[+-]?\d+`. -/
def integerExpression : Expression := signedExpression (atLeastOne isDecimalDigit)

/-- A point or none and any digits, `\.?\d*`. -/
def fractionExpression : Expression := .both (optional (.one isPoint)) (.many isDecimalDigit)

/-- Digits with a point or without one, or else a point and digits:
    `\d+\.?\d*|\.\d+`. -/
def mantissaExpression : Expression :=
  .either (.both (atLeastOne isDecimalDigit) fractionExpression)
    (.both (.one isPoint) (atLeastOne isDecimalDigit))

/-- An exponent or none, `(?:[eE][+-]?\d+)?`. -/
def exponentExpression : Expression := optional (.both (.one isExponentLetter) integerExpression)

/-- The expression for numbers with point and exponent,
    `[+-]?(?:\d+\.?\d*|\.\d+)(?:[eE][+-]?\d+)?`. -/
def floatExpression : Expression :=
  signedExpression (.both mantissaExpression exponentExpression)

/-! ## The texts that match -/

theorem matches_sign_iff {s : Text} :
    (optional (.one isSign)).Matches s ↔ ∃ negative, SpellsSign s negative := by
  constructor
  · rintro (⟨c, hc, rfl⟩ | rfl)
    · rw [isSign, Bool.or_eq_true, beq_iff_eq, beq_iff_eq] at hc
      obtain rfl | rfl := hc
      · exact ⟨false, .plus⟩
      · exact ⟨true, .minus⟩
    · exact ⟨false, .none⟩
  · rintro ⟨negative, h⟩
    cases h with
    | none => exact .inr rfl
    | plus => exact .inl ⟨'+', rfl, rfl⟩
    | minus => exact .inl ⟨'-', rfl, rfl⟩

/-- The texts that match are the integers. -/
theorem matches_integerExpression_iff {t : Text} :
    integerExpression.Matches t ↔ ∃ n, SpellsInteger t n := by
  constructor
  · rintro ⟨s, digits, hsign, hdigits, rfl⟩
    obtain ⟨negative, hsign⟩ := matches_sign_iff.mp hsign
    exact ⟨_, .intro hsign (matches_atLeastOne_iff.mp hdigits)⟩
  · rintro ⟨n, hsign, hdigits⟩
    exact ⟨_, _, matches_sign_iff.mpr ⟨_, hsign⟩, matches_atLeastOne_iff.mpr hdigits, rfl⟩

theorem matches_mantissaExpression_iff {t : Text} :
    mantissaExpression.Matches t ↔
      ∃ whole fraction, SpellsMantissa isDecimalDigit t whole fraction := by
  constructor
  · rintro (⟨whole, _, hwhole, ⟨_, fraction, hpoint | rfl, hfraction, rfl⟩, rfl⟩ |
      ⟨_, fraction, ⟨c, hc, rfl⟩, hfraction, rfl⟩)
    · obtain ⟨c, hc, rfl⟩ := hpoint
      obtain rfl := beq_iff_eq.mp hc
      exact ⟨whole, fraction, .point (matches_atLeastOne_iff.mp hwhole) hfraction⟩
    · have hrun := matches_atLeastOne_iff.mp hwhole
      exact ⟨_, [], .whole (hrun.append_of_forall hfraction)⟩
    · obtain rfl := beq_iff_eq.mp hc
      exact ⟨[], fraction, .fraction (matches_atLeastOne_iff.mp hfraction)⟩
  · rintro ⟨whole, fraction, h⟩
    cases h with
    | whole hwhole =>
      refine .inl ⟨t, [], matches_atLeastOne_iff.mpr hwhole, ?_, (List.append_nil t).symm⟩
      exact ⟨[], [], .inr rfl, List.forall_mem_nil _, rfl⟩
    | point hwhole hfraction =>
      refine .inl ⟨whole, _, matches_atLeastOne_iff.mpr hwhole, ?_, rfl⟩
      exact ⟨['.'], fraction, .inl ⟨'.', rfl, rfl⟩, hfraction, rfl⟩
    | fraction hfraction =>
      exact .inr ⟨['.'], fraction, ⟨'.', rfl, rfl⟩, matches_atLeastOne_iff.mpr hfraction, rfl⟩

theorem matches_exponentExpression_iff {t : Text} :
    exponentExpression.Matches t ↔ ∃ power, SpellsPower isDecimalDigit t power := by
  constructor
  · rintro (⟨_, _, ⟨c, hc, rfl⟩, hinteger, rfl⟩ | rfl)
    · obtain ⟨n, hsign, hdigits⟩ := matches_integerExpression_iff.mp hinteger
      rw [isExponentLetter, Bool.or_eq_true, beq_iff_eq, beq_iff_eq] at hc
      rw [List.singleton_append]
      exact ⟨_, .letter hc hsign hdigits⟩
    · exact ⟨0, .none⟩
  · rintro ⟨power, h⟩
    cases h with
    | none => exact .inr rfl
    | @letter c s digits negative hc hsign hdigits =>
      refine .inl ⟨[c], s ++ digits, ⟨c, ?_, rfl⟩, ?_, rfl⟩
      · rwa [isExponentLetter, Bool.or_eq_true, beq_iff_eq, beq_iff_eq]
      · exact matches_integerExpression_iff.mpr ⟨_, .intro hsign hdigits⟩

/-- The texts that match are the numerals. -/
theorem matches_floatExpression_iff {t : Text} :
    floatExpression.Matches t ↔ ∃ n, SpellsNumeral isDecimalDigit t n := by
  constructor
  · rintro ⟨s, _, hsign, ⟨m, e, hmantissa, hexponent, rfl⟩, rfl⟩
    obtain ⟨negative, hsign⟩ := matches_sign_iff.mp hsign
    obtain ⟨whole, fraction, hmantissa⟩ := matches_mantissaExpression_iff.mp hmantissa
    obtain ⟨power, hpower⟩ := matches_exponentExpression_iff.mp hexponent
    rw [← List.append_assoc]
    exact ⟨⟨negative, whole, fraction, power⟩, .intro hsign hmantissa hpower⟩
  · rintro ⟨n, hsign, hmantissa, hpower⟩
    refine ⟨_, _, matches_sign_iff.mpr ⟨_, hsign⟩, ?_, List.append_assoc ..⟩
    exact ⟨_, _, matches_mantissaExpression_iff.mpr ⟨_, _, hmantissa⟩,
      matches_exponentExpression_iff.mpr ⟨_, hpower⟩, rfl⟩

/-! ## Where the texts start -/

theorem stops_isSign {t : Text} (h : Unsigned t) : Stops isSign t := by
  intro c hc
  have hhead := Option.mem_def.mp hc
  rw [isSign, Bool.or_eq_false_iff, beq_eq_false_iff_ne, beq_eq_false_iff_ne]
  constructor
  · rintro rfl
    exact h.1 hhead
  · rintro rfl
    exact h.2 hhead

theorem stops_isPoint {t : Text} (h : t.head? ≠ some '.') : Stops isPoint t := by
  intro c hc
  refine beq_eq_false_iff_ne.mpr ?_
  rintro rfl
  exact h hc

theorem startsOutside_digits : (atLeastOne isDecimalDigit).StartsOutside isSign :=
  fun _ rest hs => stops_isSign (unsigned_append_of_isRun (matches_atLeastOne_iff.mp hs) rest)

theorem startsOutside_mantissaExpression :
    (Expression.both mantissaExpression exponentExpression).StartsOutside isSign := by
  rintro _ rest ⟨m, e, hm, -, rfl⟩
  obtain ⟨whole, fraction, hm⟩ := matches_mantissaExpression_iff.mp hm
  rw [List.append_assoc]
  exact stops_isSign (hm.unsigned _)

theorem startsOutside_integerExpression : integerExpression.StartsOutside Text.isWhite := by
  intro s rest hs
  obtain ⟨n, hsign, hdigits⟩ := matches_integerExpression_iff.mp hs
  rw [List.append_assoc]
  exact hsign.stops_isWhite (stops_isWhite_of_isRun hdigits rest)

theorem startsOutside_floatExpression : floatExpression.StartsOutside Text.isWhite := by
  intro s rest hs
  obtain ⟨n, hspells⟩ := matches_floatExpression_iff.mp hs
  exact hspells.stops_isWhite rest

/-! ## The first ways -/

theorem first?_signedExpression {e : Expression} (he : e.StartsOutside isSign) (t : Text) :
    (signedExpression e).first? t =
      (e.first? (sign t).2).map fun way => ((sign t).1 ++ way.1, way.2) := by
  unfold sign
  split
  · exact Expression.first?_both_optional_one_cons he rfl _
  · exact Expression.first?_both_optional_one_cons he rfl _
  · rename_i hplus hminus
    rw [signedExpression, Expression.first?_both_optional_one_of_stops]
    · exact Option.map_id'.symm
    · refine stops_isSign ⟨fun h => ?_, fun h => ?_⟩
      · obtain ⟨rest, rfl⟩ := List.head?_eq_some_iff.mp h
        exact hplus rest rfl
      · obtain ⟨rest, rfl⟩ := List.head?_eq_some_iff.mp h
        exact hminus rest rfl

theorem first?_digits (t : Text) :
    (atLeastOne isDecimalDigit).first? t = if (digits t).1 = [] then none else some (digits t) :=
  Expression.first?_atLeastOne t

theorem integerPart?_eq (t : Text) :
    integerPart? t =
      if (digits (sign t).2).1 = [] then none
      else some ((sign t).1 ++ (digits (sign t).2).1) := by
  unfold integerPart?
  dsimp only
  split
  · rename_i h
    rw [h, if_pos rfl]
  · rename_i hne h
    rw [h, if_neg hne]

theorem take?_integerExpression (t : Text) : integerExpression.take? t = integerPart? t := by
  rw [Expression.take?, integerExpression, first?_signedExpression startsOutside_digits,
    first?_digits, integerPart?_eq]
  split_ifs <;> rfl

/-- A point and the digits behind it are taken, if what is left starts with no digit. -/
theorem first?_fractionExpression {t : Text} (ht : Stops isDecimalDigit t) :
    fractionExpression.first? t = some (fraction t) := by
  have hmany : (Expression.many isDecimalDigit).Matches [] := List.forall_mem_nil _
  have hdigits : ∀ t, (Expression.many isDecimalDigit).first? t = some (digits t) :=
    Expression.first?_many
  rw [fractionExpression, Expression.first?_both_of_matches_nil hmany]
  simp only [hdigits]
  by_cases hpoint : t.head? = some '.'
  · obtain ⟨rest, rfl⟩ := List.head?_eq_some_iff.mp hpoint
    rfl
  · rw [fraction_of_head?_ne hpoint, Option.bind_eq_some_iff]
    refine ⟨([], t), Expression.first?_optional_one_of_stops (stops_isPoint hpoint), ?_⟩
    rw [digits_of_stops ht]
    rfl

/-- A text that starts with no digit can only start with the point. -/
theorem first?_both_point {t : Text} (hnone : (digits t).1 = []) :
    (Expression.both (.one isPoint) (atLeastOne isDecimalDigit)).first? t = mantissa? t := by
  rw [mantissa?, digits_of_fst_eq_nil hnone]
  dsimp only
  by_cases hpoint : t.head? = some '.'
  · obtain ⟨rest, rfl⟩ := List.head?_eq_some_iff.mp hpoint
    rw [Expression.first?_both_one_cons, if_pos (show isPoint '.' = true from rfl), first?_digits,
      fraction]
    dsimp only
    cases digits rest with
    | mk taken rest =>
      cases taken with
      | nil => rfl
      | cons c taken => rfl
  · rw [fraction_of_head?_ne hpoint, Expression.first?, Expression.ways,
      Expression.ways_one_of_stops (stops_isPoint hpoint)]
    rfl

theorem first?_mantissaExpression (t : Text) : mantissaExpression.first? t = mantissa? t := by
  have hfraction : fractionExpression.Matches [] :=
    ⟨[], [], .inr rfl, List.forall_mem_nil _, rfl⟩
  rw [mantissaExpression, Expression.first?_either,
    Expression.first?_both_of_matches_nil hfraction, first?_digits]
  have hdigits : ∀ c ∈ (digits t).1, isDecimalDigit c = true :=
    fun _ => isDecimalDigit_of_mem_digits
  by_cases hnone : (digits t).1 = []
  · rw [if_pos hnone, Option.bind_none, Option.none_or]
    exact first?_both_point hnone
  · rw [if_neg hnone, Option.bind_some, first?_fractionExpression (stops_digits t)]
    have hmantissa := mantissa?_of_isRun ⟨hnone, hdigits⟩ (stops_digits t)
    rw [digits_append_self] at hmantissa
    rw [hmantissa]
    rfl

theorem exists_first?_exponentExpression (t : Text) :
    ∃ rest, exponentExpression.first? t = some (exponent t, rest) := by
  cases t with
  | nil => exact ⟨[], rfl⟩
  | cons c t =>
    rw [exponentExpression, Expression.optional, Expression.first?_either,
      Expression.first?_both_one_cons, isExponentLetter, exponent, ← take?_integerExpression,
      Expression.take?]
    split_ifs
    · cases integerExpression.first? t with
      | none => exact ⟨c :: t, rfl⟩
      | some way => exact ⟨way.2, rfl⟩
    · exact ⟨c :: t, rfl⟩

theorem take?_floatExpression (t : Text) : floatExpression.take? t = floatPart? t := by
  have hexponent : exponentExpression.Matches [] := .inr rfl
  rw [Expression.take?, floatExpression, first?_signedExpression startsOutside_mantissaExpression,
    Expression.first?_both_of_matches_nil hexponent, first?_mantissaExpression, floatPart?_eq]
  cases mantissa? (sign t).2 with
  | none => rfl
  | some way =>
    obtain ⟨rest, hrest⟩ := exists_first?_exponentExpression way.2
    rw [Option.bind_some, hrest]
    simp only [Option.map_some, List.append_assoc]

/-! ## What is captured -/

theorem capture?_integerExpression (value : Text) :
    integerExpression.capture? value = leadingInteger? value := by
  rw [Expression.capture?_eq_take? startsOutside_integerExpression, take?_integerExpression,
    leadingInteger?]

theorem capture?_floatExpression (value : Text) :
    floatExpression.capture? value = leadingFloat? value := by
  rw [Expression.capture?_eq_take? startsOutside_floatExpression, take?_floatExpression,
    leadingFloat?]

/-- What is taken from a text is the longest integer that it starts with. -/
theorem findsLongest_integerPart? (t : Text) :
    FindsLongest integerExpression.Matches t (integerPart? t) := by
  refine Text.findsLongest_of_extends (fun t part h => ?_) (fun part rest h => ?_) t
  · obtain ⟨s, negative, digits, rest, hsign, hdigits, -, rfl, rfl⟩ :=
      integerPart?_eq_some_iff.mp h
    exact ⟨matches_integerExpression_iff.mpr ⟨_, .intro hsign hdigits⟩, List.prefix_append _ rest⟩
  · obtain ⟨n, hsign, hdigits⟩ := matches_integerExpression_iff.mp h
    exact ⟨_, integerPart?_append_digits hsign hdigits rest⟩

/-- **Captures are longest matches.** What is taken from a value is what the
    expression captures in the first way to match. Behind the white space that the
    value starts with, no longer start matches in any way, and nothing is taken only
    if none matches at all. A number that is taken is read unless it has digits
    outside ASCII. -/
theorem captures_longest (value : Text) :
    (leadingInteger? value = integerExpression.capture? value ∧
      FindsLongest integerExpression.Matches value.trimStart (leadingInteger? value)) ∧
    (leadingFloat? value = floatExpression.capture? value ∧
      FindsLongest floatExpression.Matches value.trimStart (leadingFloat? value)) ∧
    ∀ text, leadingFloat? value = some text →
      (Decimal.ofText? text = none ↔
        ∃ c ∈ text, isDecimalDigit c = true ∧ c.isDigit = false) := by
  have hform : floatExpression.Matches = fun text => ∃ n, SpellsNumeral isDecimalDigit text n :=
    funext fun _ => propext matches_floatExpression_iff
  have hfloat := findsLongest_floatPart? value.trimStart
  refine ⟨⟨(capture?_integerExpression value).symm, findsLongest_integerPart? _⟩,
    ⟨(capture?_floatExpression value).symm, hform ▸ hfloat⟩, fun text htext => ?_⟩
  obtain ⟨⟨n, hspells⟩, -, -⟩ := (hfloat.eq_some_iff text).mp htext
  exact hspells.ofText?_eq_none_iff

/-- A point without digits behind it, an exponent in another script, and a second
    exponent without digits. -/
theorem captures_longest_dangling_exponent :
    floatExpression.capture? " -12.e+٣e- kg".toList = some "-12.e+٣".toList ∧
      IsLongest floatExpression.Matches "-12.e+٣e- kg".toList "-12.e+٣".toList ∧
      Decimal.ofText? "-12.e+٣".toList = none := by
  have hfloat : leadingFloat? " -12.e+٣e- kg".toList = some "-12.e+٣".toList := by
    decide +kernel
  obtain ⟨-, ⟨hcapture, hlongest⟩, hread⟩ := captures_longest " -12.e+٣e- kg".toList
  refine ⟨hcapture.symm.trans hfloat, (hlongest.eq_some_iff _).mp hfloat, ?_⟩
  exact (hread _ hfloat).mpr ⟨'٣', by decide, by decide +kernel, by decide⟩

end TypedTriples.Number
