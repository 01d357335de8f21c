import Mathlib
import TypedTriples.Proofs.Calendar.Order
import TypedTriples.Proofs.Literal.Enhanced

/-!
# Literals of moments and days

The kind of moments writes the canonical form of a value as a literal, the kind of
days the part of that form in front of the letter `T`. Both fail on the values that
are no timestamps, with the same fault, and no other kind fails. What is written is
a lexical form of the datatype for the years 0 to 9999; a moment must not be a leap
second either.

Main definitions:
* `Kind.temporal`: the kinds with timestamps for values.
* `Literal.IsLexical`: the lexical forms of their datatypes.

Main results:
* `Ruleset.term_eq_error_iff`: the values that a kind fails on.
* `Ruleset.enhance_isLexical_iff`: the literals that are lexical forms.
* `Ruleset.enhance_temporal`: how the two kinds agree, and which records fail.
-/

namespace TypedTriples

open Text (IsDigits)
open Timestamp (Denotes HasFourDigitYear)

/-! ## Specification -/

/-- The kinds with timestamps for values. -/
def Kind.temporal : List Kind := [dateTime, date]

/-- The lexical forms of the datatypes of moments and days as the program promises
    them: every field in its width and without a sign, a date that exists, and a time
    of a day of 24 hours. -/
inductive Literal.IsLexical : Kind → Text → Prop
  | date {year month day : Text} : IsDigits 4 year → IsDigits 2 month → IsDigits 2 day →
      Date.Valid ⟨Text.toNat year, Text.toNat month, Text.toNat day⟩ →
      IsLexical .date (year ++ '-' :: month ++ '-' :: day)
  | dateTime {day hour minute second millis : Text} : IsLexical .date day → IsDigits 2 hour →
      IsDigits 2 minute → IsDigits 2 second → IsDigits 3 millis → Text.toNat hour ≤ 23 →
      Text.toNat minute ≤ 59 → Text.toNat second ≤ 59 →
      IsLexical .dateTime (day ++ 'T' :: hour ++ ':' :: minute ++ ':' :: second ++
        '.' :: millis ++ ['Z'])

/-! ## Days -/

namespace Moment

variable {m : Moment}

theorem exists_text_eq (m : Moment) : ∃ time, m.text = m.date.text ++ 'T' :: time := by
  unfold text
  simp only [List.append_assoc, List.cons_append]
  exact ⟨_, rfl⟩

end Moment

namespace Date

theorem mem_text {date : Date} {c : Char} (h : c ∈ date.text) :
    c.isDigit = true ∨ c = '-' ∨ c = '+' := by
  have hdigit {width n : Nat} (hc : c ∈ Text.ofNatPadded width n) : c.isDigit = true :=
    Text.isDigit_of_mem_ofNatPadded hc
  unfold text yearText at h
  simp only [List.mem_append, List.mem_cons] at h
  rcases h with (hyear | rfl | hmonth) | rfl | hday
  · split at hyear
    · exact .inl (hdigit hyear)
    · rcases List.mem_cons.mp hyear with rfl | hyear
      · right
        split <;> simp
      · exact .inl (hdigit hyear)
  · simp
  · exact .inl (hdigit hmonth)
  · simp
  · exact .inl (hdigit hday)

theorem letter_not_mem_text (date : Date) : 'T' ∉ date.text := by
  intro h
  rcases mem_text h with hdigit | hminus | hplus
  · cases hdigit
  · cases hminus
  · cases hplus

end Date

theorem eq_of_append_cons_eq {c : Char} {t u after after' : Text} (ht : c ∉ t) (hu : c ∉ u)
    (h : t ++ c :: after = u ++ c :: after') : t = u := by
  have htake {s : Text} (hs : c ∉ s) (rest : Text) : (s ++ c :: rest).takeWhile (· != c) = s := by
    have hall : ∀ d ∈ s, (d != c) = true := by
      intro d hd
      rw [bne_iff_ne]
      rintro rfl
      exact hs hd
    exact Directive.takeWhile_append_of_stops hall (Directive.stops_cons.mpr (by simp))
  rw [← htake ht after, h, htake hu after']

/-! ## Lexical forms -/

theorem Timestamp.HasFourDigitYear.append {t : Text} (h : HasFourDigitYear t) (rest : Text) :
    HasFourDigitYear (t ++ rest) := by
  obtain ⟨year, after, hyear, rfl⟩ := h
  exact ⟨year, after ++ rest, hyear, List.append_assoc _ _ _⟩

namespace Literal

variable {kind : Kind} {t u : Text} {m : Moment}

theorem IsLexical.hasFourDigitYear (h : IsLexical kind t) : HasFourDigitYear t := by
  induction h with
  | date hyear => exact ⟨_, _, hyear, List.append_assoc _ _ _⟩
  | dateTime _ _ _ _ _ _ _ _ hday =>
    exact ((((hday.append _).append _).append _).append _).append _

theorem isLexical_date_iff {date : Date} (h : date.Valid) :
    IsLexical .date date.text ↔ 0 ≤ date.year ∧ date.year ≤ 9999 := by
  constructor
  · intro hlexical
    have hyear := hlexical.hasFourDigitYear
    unfold Date.text at hyear
    rw [List.append_assoc, List.cons_append] at hyear
    exact Date.hasFourDigitYear_yearText_iff.mp hyear
  · intro hrange
    obtain ⟨hyear, hnumber⟩ := Date.isDigits_yearText hrange
    refine .date hyear (Date.isDigits_month h) (Date.isDigits_day h) ?_
    simp only [Text.toNat_ofNatPadded, hnumber]
    exact h

/-- A lexical form of a moment is the form of one without a leap second. -/
theorem exists_text_eq_of_isLexical (h : IsLexical .dateTime t) :
    ∃ m : Moment, m.Regular ∧ m.second ≤ 59 ∧ t = m.text := by
  cases h with
  | @dateTime day hour minute second millis hday hhour hminute hsecond hmillis hhour' hminute'
      hsecond' =>
    cases hday with
    | date hyear hmonth hday hdate =>
      have hlt := Text.toNat_lt hmillis.2
      rw [hmillis.1] at hlt
      have htext := Timestamp.text_toNat hyear hmonth hday hhour hminute hsecond hmillis
      exact ⟨_, ⟨hdate, hhour', hminute', Nat.le_succ_of_le hsecond', hlt⟩, hsecond', htext.symm⟩

/-- A moment is written as a lexical form if its year has four digits and its second is
    no leap second. -/
theorem isLexical_dateTime_iff (h : m.Regular) :
    IsLexical .dateTime m.text ↔ 0 ≤ m.date.year ∧ m.date.year ≤ 9999 ∧ m.second ≤ 59 := by
  constructor
  · intro hlexical
    have hyear := Moment.hasFourDigitYear_text_iff.mp hlexical.hasFourDigitYear
    obtain ⟨n, hn, hsecond, htext⟩ := exists_text_eq_of_isLexical hlexical
    have hyear' := hlexical.hasFourDigitYear
    rw [htext] at hyear'
    -- Equal texts are those of one instant, and so of one second.
    have hinstant := (Moment.text_eq_iff h hn hyear (Moment.hasFourDigitYear_text_iff.mp hyear')).mp
      htext
    have hseconds : m.second = n.second := congrArg Instant.second hinstant
    rw [hseconds]
    exact ⟨hyear.1, hyear.2, hsecond⟩
  · rintro ⟨hlow, hhigh, hsecond⟩
    have hday := (isLexical_date_iff h.date).mpr ⟨hlow, hhigh⟩
    obtain ⟨hhour, hminute, hsecond', hmillis⟩ := h.isDigits_time
    unfold Moment.text
    refine .dateTime hday hhour hminute hsecond' hmillis ?_ ?_ ?_
    all_goals rw [Text.toNat_ofNatPadded]
    · exact h.hour
    · exact h.minute
    · exact hsecond

end Literal

/-! ## Terms -/

namespace Timestamp

variable {value : Text}

/-- **The form of a date is what the form of the moment has in front of its letter.** -/
theorem normalizeDate_eq_ok_iff_normalize {day : Text} :
    normalizeDate value = .ok day ↔
      ∃ time, normalize value = .ok (day ++ 'T' :: time) ∧ 'T' ∉ day := by
  constructor
  · intro h
    obtain ⟨m, hm, rfl⟩ := normalizeDate_eq_ok_iff.mp h
    obtain ⟨time, htext⟩ := m.exists_text_eq
    exact ⟨time, normalize_eq_ok_iff.mpr ⟨m, hm, htext⟩, m.date.letter_not_mem_text⟩
  · rintro ⟨time, hform, hday⟩
    obtain ⟨m, hm, htext⟩ := normalize_eq_ok_iff.mp hform
    obtain ⟨time', htext'⟩ := m.exists_text_eq
    rw [htext'] at htext
    exact normalizeDate_eq_ok_iff.mpr
      ⟨m, hm, eq_of_append_cons_eq m.date.letter_not_mem_text hday htext⟩

end Timestamp

namespace Ruleset

variable {rules : Ruleset} {kind : Kind} {record : Triple} {value : Text} {m : Moment}

/-- **The values that a kind fails on** are, for moments and days, those that are no
    timestamps. -/
theorem term_eq_error_iff {e : InvalidTimestamp} :
    rules.term kind value = .error e ↔ kind ∈ Kind.temporal ∧ Timestamp.moment value = .error e := by
  unfold term
  cases kind with
  | dateTime | date =>
    simp [Kind.temporal, Timestamp.map_eq_error_iff, Timestamp.normalize_eq_error_iff,
      Timestamp.normalizeDate_eq_error_iff]
  | string | anyUri | number | unknown | localized | integer | float | boolean | iri =>
    simp [Kind.temporal]

theorem term_of_moment (hkind : kind ∈ Kind.temporal) (h : Timestamp.moment value = .ok m) :
    ∃ lexical, rules.term kind value = .ok (Literal.typed kind lexical) ∧
      (Literal.IsLexical kind lexical ↔
        0 ≤ m.date.year ∧ m.date.year ≤ 9999 ∧ (kind = .dateTime → m.second ≤ 59)) := by
  have hregular := Timestamp.regular_of_moment h
  simp only [Kind.temporal, List.mem_cons, List.not_mem_nil, or_false] at hkind
  rcases hkind with rfl | rfl
  · refine ⟨m.text, ?_, ?_⟩
    · unfold term Timestamp.normalize
      rw [h]
      rfl
    · rw [Literal.isLexical_dateTime_iff hregular]
      simp
  · refine ⟨m.date.text, ?_, ?_⟩
    · unfold term Timestamp.normalizeDate
      rw [h]
      rfl
    · rw [Literal.isLexical_date_iff hregular.date]
      simp

theorem enhance_eq_error_iff {fault : EnhanceFault} :
    rules.enhance record = .error fault ↔
      (∃ e, rules.term (rules.resolve record.predicate) record.object = .error e) ∧
        fault = ⟨record.predicate, record.object⟩ := by
  unfold enhance
  cases rules.term (rules.resolve record.predicate) record.object with
  | error e => simp [eq_comm]
  | ok object => simp

/-- A record fails if its predicate has moments or days and its object is no timestamp,
    and with these two. -/
theorem enhance_eq_error_iff_moment {fault : EnhanceFault}
    (hkind : rules.resolve record.predicate ∈ Kind.temporal) :
    rules.enhance record = .error fault ↔
      (∃ e, Timestamp.moment record.object = .error e) ∧
        fault = ⟨record.predicate, record.object⟩ := by
  rw [enhance_eq_error_iff]
  simp only [term_eq_error_iff, hkind, true_and]

/-- **Which literals of moments and days are lexical forms of their datatypes.** An
    object that denotes no instant is reported. Any other object is written as a literal
    of its kind, and this is a lexical form exactly if the year of the instant has four
    digits and, for a moment, its second is no leap second. -/
theorem enhance_isLexical_iff (hkind : rules.resolve record.predicate ∈ Kind.temporal) :
    ((¬ ∃ i, Denotes record.object i) →
        rules.enhance record = .error ⟨record.predicate, record.object⟩) ∧
      ∀ i, Denotes record.object i → ∃ statement lexical, rules.enhance record = .ok statement ∧
        statement.object = Literal.typed (rules.resolve record.predicate) lexical ∧
        (Literal.IsLexical (rules.resolve record.predicate) lexical ↔
          0 ≤ i.date.year ∧ i.date.year ≤ 9999 ∧
            (rules.resolve record.predicate = .dateTime → i.second ≤ 59)) := by
  constructor
  · intro hnone
    rw [enhance_eq_error_iff_moment hkind]
    cases hmoment : Timestamp.moment record.object with
    | error e => exact ⟨⟨e, rfl⟩, rfl⟩
    | ok m => exact absurd ⟨m.instant, Timestamp.denotes_iff.mpr ⟨m, hmoment, rfl⟩⟩ hnone
  · intro i hi
    obtain ⟨m, hmoment, rfl⟩ := Timestamp.denotes_iff.mp hi
    obtain ⟨lexical, hterm, hlexical⟩ := @term_of_moment rules _ _ _ hkind hmoment
    rw [Moment.date_instant (Timestamp.regular_of_moment hmoment)]
    unfold enhance
    rw [hterm]
    exact ⟨_, lexical, rfl, rfl, hlexical⟩

/-- A leap second that is the first minute of a day at the offset zero, as a day. -/
theorem enhance_isLexical_iff_leap_second :
    ∃ statement lexical, (ofText "ex:p date".toList).enhance
        ⟨"ex:a".toList, "ex:p".toList, " 2024-02-28T23:59:60-00:01 ".toList⟩ = .ok statement ∧
      statement.object = Literal.typed .date lexical ∧ Literal.IsLexical .date lexical := by
  have hkind : (ofText "ex:p date".toList).resolve "ex:p".toList = .date := by
    cbv
  have htemporal : (ofText "ex:p date".toList).resolve "ex:p".toList ∈ Kind.temporal := by
    rw [hkind]
    decide
  have hmoment : Timestamp.moment " 2024-02-28T23:59:60-00:01 ".toList =
      .ok ⟨⟨2024, 2, 29⟩, 0, 0, 60, 0⟩ := by
    rfl
  have hday := Moment.date_instant (Timestamp.regular_of_moment hmoment)
  obtain ⟨statement, lexical, hok, hobject, hlexical⟩ :=
    (@enhance_isLexical_iff _ ⟨"ex:a".toList, "ex:p".toList, " 2024-02-28T23:59:60-00:01 ".toList⟩
      htemporal).2 _ (Timestamp.denotes_iff.mpr ⟨_, hmoment, rfl⟩)
  rw [hkind] at hobject hlexical
  rw [hday] at hlexical
  exact ⟨statement, lexical, hok, hobject, hlexical.mpr ⟨by decide, by decide, by simp⟩⟩

/-- The last minute with a year of four digits is written behind the offset zero, and the
    literal of its moment is no lexical form. -/
theorem enhance_behind_last_year :
    (ofText "ex:p datetime".toList).resolve "ex:p".toList = .dateTime ∧
      ∃ statement, (ofText "ex:p datetime".toList).enhance
          ⟨"ex:a".toList, "ex:p".toList, "9999-12-31T23:59:59-00:01".toList⟩ = .ok statement ∧
        ¬ ∃ lexical, statement.object = Literal.typed .dateTime lexical ∧
          Literal.IsLexical .dateTime lexical := by
  have hkind : (ofText "ex:p datetime".toList).resolve "ex:p".toList = .dateTime := by
    cbv
  have hterm : (ofText "ex:p datetime".toList).term .dateTime "9999-12-31T23:59:59-00:01".toList =
      .ok (Literal.typed .dateTime "+10000-01-01T00:00:59.000Z".toList) := by
    rfl
  have hok : (ofText "ex:p datetime".toList).enhance
      ⟨"ex:a".toList, "ex:p".toList, "9999-12-31T23:59:59-00:01".toList⟩ =
        .ok ⟨(ofText "ex:p datetime".toList).prefixes.inflate "ex:a".toList,
          (ofText "ex:p datetime".toList).prefixes.inflate "ex:p".toList,
          Literal.typed .dateTime "+10000-01-01T00:00:59.000Z".toList⟩ := by
    unfold enhance
    simp only
    rw [hkind, hterm]
  refine ⟨hkind, _, hok, ?_⟩
  rintro ⟨lexical, hobject, hlexical⟩
  obtain rfl := Literal.typed_inj hobject
  obtain ⟨year, rest, hyear, hform⟩ := hlexical.hasFourDigitYear
  exact (hyear.isRun (by decide)).append_ne (c := '+') rfl hform.symm

/-- **The kinds of moments and of days agree.** A value has a form as a day exactly if it
    has one as a moment, with the same fault otherwise; the form as a day is the part in
    front of the letter `T` and names the day of the instant. A record whose predicate
    has one of these kinds fails exactly if its object is no timestamp, and the fault has
    its predicate and its object as they are; it fails in the same way if the kind is the
    other one. A record of any other kind has a statement. -/
theorem enhance_temporal :
    (∀ value,
        (∀ fault, Timestamp.normalizeDate value = .error fault ↔
          Timestamp.normalize value = .error fault) ∧
        (∀ day, Timestamp.normalizeDate value = .ok day ↔
          ∃ time, Timestamp.normalize value = .ok (day ++ 'T' :: time) ∧ 'T' ∉ day) ∧
        ∀ i, Denotes value i → Timestamp.normalizeDate value = .ok i.date.text) ∧
      ∀ (rules : Ruleset) (record : Triple),
        (rules.resolve record.predicate ∈ Kind.temporal →
          (∀ fault, rules.enhance record = .error fault ↔
            (∃ e, Timestamp.moment record.object = .error e) ∧
              fault = ⟨record.predicate, record.object⟩) ∧
          ∀ rules' : Ruleset, rules'.resolve record.predicate ∈ Kind.temporal →
            ∀ fault, rules'.enhance record = .error fault ↔ rules.enhance record = .error fault) ∧
        (rules.resolve record.predicate ∉ Kind.temporal →
          ∃ statement, rules.enhance record = .ok statement) := by
  refine ⟨fun value => ⟨fun fault => ?_, fun day => ?_, fun i hi => ?_⟩,
    fun rules record => ⟨fun hkind => ⟨fun fault => ?_, fun rules' hkind' fault => ?_⟩,
      fun hkind => ?_⟩⟩
  · rw [Timestamp.normalizeDate_eq_error_iff, Timestamp.normalize_eq_error_iff]
  · exact Timestamp.normalizeDate_eq_ok_iff_normalize
  · obtain ⟨m, hm, rfl⟩ := Timestamp.denotes_iff.mp hi
    rw [Moment.date_instant (Timestamp.regular_of_moment hm)]
    exact Timestamp.normalizeDate_eq_ok_iff.mpr ⟨m, hm, rfl⟩
  · exact enhance_eq_error_iff_moment hkind
  · rw [enhance_eq_error_iff_moment hkind', enhance_eq_error_iff_moment hkind]
  · cases hresult : rules.enhance record with
    | ok statement => exact ⟨statement, rfl⟩
    | error fault =>
      obtain ⟨⟨e, hterm⟩, -⟩ := enhance_eq_error_iff.mp hresult
      exact absurd (term_eq_error_iff.mp hterm).1 hkind

/-- A value that is no timestamp, under the two kinds and under another one, and a date
    behind the years with four digits. -/
theorem enhance_temporal_tomorrow :
    (ofText "ex:p date".toList).enhance
        ⟨"ex:a".toList, "ex:p".toList, " tomorrow".toList⟩ =
          .error ⟨"ex:p".toList, " tomorrow".toList⟩ ∧
      (ofText "ex:p datetime".toList).enhance
        ⟨"ex:a".toList, "ex:p".toList, " tomorrow".toList⟩ =
          .error ⟨"ex:p".toList, " tomorrow".toList⟩ ∧
      (∃ statement, (ofText "ex:p integer".toList).enhance
        ⟨"ex:a".toList, "ex:p".toList, " tomorrow".toList⟩ = .ok statement) ∧
      Timestamp.normalizeDate " 9999-12-31T23:59:60-00:01 ".toList =
        .ok "+10000-01-01".toList := by
  have hdate : (ofText "ex:p date".toList).resolve "ex:p".toList ∈ Kind.temporal := by
    rw [show (ofText "ex:p date".toList).resolve "ex:p".toList = .date by cbv]
    decide
  have hmoment : (ofText "ex:p datetime".toList).resolve "ex:p".toList ∈ Kind.temporal := by
    rw [show (ofText "ex:p datetime".toList).resolve "ex:p".toList = .dateTime by cbv]
    decide
  have hinteger : (ofText "ex:p integer".toList).resolve "ex:p".toList ∉ Kind.temporal := by
    rw [show (ofText "ex:p integer".toList).resolve "ex:p".toList = .integer by cbv]
    decide
  have hnone : Timestamp.moment " tomorrow".toList = .error ⟨"tomorrow".toList⟩ := by
    rfl
  have hform : Timestamp.normalize " 9999-12-31T23:59:60-00:01 ".toList =
      .ok ("+10000-01-01".toList ++ 'T' :: "00:00:60.000Z".toList) := by
    rfl
  obtain ⟨hvalues, hrecords⟩ := enhance_temporal
  obtain ⟨hfails, hsame⟩ := (hrecords _ ⟨"ex:a".toList, "ex:p".toList, " tomorrow".toList⟩).1 hdate
  have hfault := (hfails _).mpr ⟨⟨_, hnone⟩, rfl⟩
  exact ⟨hfault, (hsame _ hmoment _).mpr hfault, (hrecords _ _).2 hinteger,
    ((hvalues _).2.1 _).mpr ⟨_, hform, by decide⟩⟩

end Ruleset

end TypedTriples
