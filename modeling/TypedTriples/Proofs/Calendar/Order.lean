import Mathlib
import TypedTriples.Proofs.Calendar.Unzoned

/-!
# Canonical timestamps are ordered by time

The fields of a canonical form have fixed widths and stand from the largest to
the smallest, so that forms compare character by character as their dates and
times of day do. Days compare as their numbers, and so the forms of two
timestamps compare as the instants that the timestamps denote, whatever their
layouts and offsets. A leap second comes after the other seconds of its minute
and before the next minute.

Main definitions:
* `Instant`, `Instant.Before`: points in time and their order.
* `Instant.date`: the day of an instant.
* `Timestamp.Denotes`: the instant that a timestamp denotes.
* `Timestamp.HasFourDigitYear`: the forms with a year from 0 to 9999.

Main results:
* `Text.lt_append_iff`: numerals of one width compare as their numbers.
* `Date.dayNumber_lt_iff`: days compare as their numbers.
* `Timestamp.denotes_iff`: the instant of a timestamp and its moment.
* `Timestamp.normalize_order`: canonical forms compare as instants.
-/

namespace TypedTriples

open Text (IsDigits)

/-! ## Specification -/

/-- A point in time at the offset zero, to the millisecond: the minutes since the
    start of the year 0, with 1440 for each day of the calendar, and the second of
    the minute, which is 60 for a leap second. -/
structure Instant where
  minute : Int
  second : Nat
  millis : Nat

/-- The day of an instant. -/
def Instant.date (i : Instant) : Date := Date.ofDayNumber (i.minute / 1440)

/-- Instants of different minutes compare as these, instants of one minute by their
    seconds and then by their milliseconds. -/
def Instant.Before (i j : Instant) : Prop :=
  i.minute < j.minute ∨ i.minute = j.minute ∧
    (i.second < j.second ∨ i.second = j.second ∧ i.millis < j.millis)

/-- The instant of a moment. -/
def Moment.instant (m : Moment) : Instant := ⟨m.minuteNumber, m.second, m.millis⟩

/-- The instant that a timestamp denotes, cut off behind its milliseconds: that of its
    fields, earlier by the offset if it has one. -/
inductive Timestamp.Denotes : Text → Instant → Prop
  | zoned {z : Zoned} {t value : Text} : t.Surrounded value → z.Spells t → z.Valid →
      Denotes value
        ⟨z.moment.minuteNumber - z.offset.minutes, z.second, Layout.millisOf z.fraction⟩
  | unzoned {u : Unzoned} {mark : Layout.Continuation} {t value : Text} : t.Surrounded value →
      u.Spells mark t → u.Valid →
      Denotes value ⟨u.moment.minuteNumber, u.second, Layout.millisOf u.fraction⟩

/-- A form whose year has four digits and no sign. -/
def Timestamp.HasFourDigitYear (form : Text) : Prop :=
  ∃ year rest, IsDigits 4 year ∧ form = year ++ '-' :: rest

/-- Whether a day comes before another, by the year, the month and the day of the
    month. -/
def Date.Before (a b : Date) : Prop :=
  a.year < b.year ∨ a.year = b.year ∧
    (a.month < b.month ∨ a.month = b.month ∧ a.day < b.day)

/-! ## Numerals -/

namespace Text

/-- A smaller first digit makes a smaller number, whatever digits follow. -/
theorem toNat_cons_lt {c d : Char} {t u : Text} (hc : 48 ≤ c.toNat) (h : c.toNat < d.toNat)
    (ht : ∀ e ∈ t, e.isDigit = true) (hlength : t.length = u.length) :
    toNat (c :: t) < toNat (d :: u) := by
  have hlt := toNat_lt ht
  have hstep : 10 ^ t.length * (c.toNat - 48 + 1) ≤ 10 ^ t.length * (d.toNat - 48) :=
    Nat.mul_le_mul_left _ (by omega)
  rw [toNat_cons, toNat_cons, ← hlength]
  rw [Nat.mul_add, Nat.mul_one] at hstep
  omega

/-- **Numerals of one width compare as their numbers**, and texts that start with equal
    ones compare as they go on. -/
theorem lt_append_iff {t u : Text} (ht : ∀ c ∈ t, c.isDigit = true)
    (hu : ∀ c ∈ u, c.isDigit = true) (hlength : t.length = u.length) (s s' : Text) :
    t ++ s < u ++ s' ↔ toNat t < toNat u ∨ toNat t = toNat u ∧ s < s' := by
  induction t generalizing u with
  | nil =>
    obtain rfl := List.length_eq_zero_iff.mp hlength.symm
    simp
  | cons c t ih =>
    cases u with
    | nil => cases hlength
    | cons d u =>
      obtain ⟨hc, ht⟩ := List.forall_mem_cons.mp ht
      obtain ⟨hd, hu⟩ := List.forall_mem_cons.mp hu
      have hlength' : t.length = u.length := Nat.succ.inj hlength
      have hcbounds := isDigit_bounds hc
      have hdbounds := isDigit_bounds hd
      have hchar : c < d ↔ c.toNat < d.toNat := Iff.rfl
      rw [List.cons_append, List.cons_append, List.cons_lt_cons_iff, ih ht hu hlength', hchar]
      rcases Nat.lt_trichotomy c.toNat d.toNat with hlt | heq | hgt
      · have hsmaller := toNat_cons_lt hcbounds.1 hlt ht hlength'
        simp [hlt, hsmaller]
      · obtain rfl := Char.toNat_inj.mp heq
        rw [toNat_cons, toNat_cons, hlength', Nat.add_lt_add_iff_left, Nat.add_left_cancel_iff]
        simp only [Nat.lt_irrefl, false_or, true_and]
      · have hlarger := toNat_cons_lt hdbounds.1 hgt hu hlength'.symm
        have hne : c ≠ d := by
          rintro rfl
          exact Nat.lt_irrefl _ hgt
        simp only [Nat.not_lt_of_gt hgt, hne, false_and, or_false, false_iff]
        rintro (hless | ⟨hequal, -⟩)
        · omega
        · omega

theorem ofNatPadded_lt_append_iff {width n m : Nat} (hwidth : 0 < width) (hn : n < 10 ^ width)
    (hm : m < 10 ^ width) (s s' : Text) :
    ofNatPadded width n ++ s < ofNatPadded width m ++ s' ↔ n < m ∨ n = m ∧ s < s' := by
  have hdigits := isDigits_ofNatPadded hwidth hn
  have hdigits' := isDigits_ofNatPadded hwidth hm
  rw [lt_append_iff hdigits.2 hdigits'.2 (hdigits.1.trans hdigits'.1.symm),
    toNat_ofNatPadded, toNat_ofNatPadded]

end Text

/-! ## Days -/

namespace Date

variable {a b : Date}

theorem yearStart_strictMono : StrictMono yearStart := strictMono_int_of_lt_succ yearStart_lt

theorem before_trichotomy (a b : Date) : a.Before b ∨ a = b ∨ b.Before a := by
  obtain ⟨year, month, day⟩ := a
  obtain ⟨year', month', day'⟩ := b
  unfold Before
  simp only [mk.injEq]
  omega

/-- **An earlier day has a smaller number.** -/
theorem dayNumber_lt (ha : a.Valid) (hb : b.Valid) (h : a.Before b) :
    a.dayNumber < b.dayNumber := by
  rcases h with hyear | ⟨hyear, hmonth | ⟨hmonth, hday⟩⟩
  · -- The later day is not before its year, and the earlier one is before the end of its own.
    have hend := (dayNumber_mem_year ha).2
    have hstart := (dayNumber_mem_year hb).1
    have hyears : yearStart (a.year + 1) ≤ yearStart b.year :=
      yearStart_strictMono.monotone (by omega)
    omega
  · obtain ⟨before, length, after, hlengths, hmonths, -, hlast⟩ := valid_iff_exists.mp ha
    obtain ⟨before', length', after', hlengths', hmonths', hfirst', -⟩ := valid_iff_exists.mp hb
    -- The month of the earlier day is among the months before that of the later one.
    have hmonths₁ : before ++ [length] <+: monthLengths (isLeap b.year) := by
      rw [← hyear, hlengths]
      exact ⟨after, by rw [List.append_assoc, List.singleton_append]⟩
    have hmonths₂ : before' <+: monthLengths (isLeap b.year) := ⟨length' :: after', hlengths'.symm⟩
    have hcount : (before ++ [length]).length ≤ before'.length := by
      rw [List.length_append, List.length_singleton]
      omega
    obtain ⟨between, rfl⟩ := List.prefix_of_prefix_length_le hmonths₁ hmonths₂ hcount
    rw [dayNumber_of_append hlengths hmonths, dayNumber_of_append hlengths' hmonths', hyear,
      List.sum_append, List.sum_append, List.sum_singleton]
    omega
  · unfold dayNumber
    rw [hyear, hmonth]
    omega

/-- **Days compare as their numbers.** -/
theorem dayNumber_lt_iff (ha : a.Valid) (hb : b.Valid) :
    a.dayNumber < b.dayNumber ↔ a.Before b := by
  constructor
  · intro h
    rcases before_trichotomy a b with hbefore | rfl | hafter
    · exact hbefore
    · exact absurd h (lt_irrefl _)
    · exact absurd (dayNumber_lt hb ha hafter) (lt_asymm h)
  · exact dayNumber_lt ha hb

theorem hasFourDigitYear_yearText_iff {year : Int} {rest : Text} :
    Timestamp.HasFourDigitYear (yearText year ++ '-' :: rest) ↔ 0 ≤ year ∧ year ≤ 9999 := by
  constructor
  · rintro ⟨digits, after, hdigits, hform⟩
    by_contra hrange
    obtain ⟨sign, hsign, hsigned⟩ := @yearText_signed year (by omega)
    rw [hsigned] at hform
    exact (hdigits.isRun (by decide)).append_ne (Layout.sign_eq_false hsign).1 hform.symm
  · intro hrange
    exact ⟨_, rest, (isDigits_yearText hrange).1, rfl⟩

end Date

/-! ## Moments -/

namespace Instant

theorem before_trichotomy (i j : Instant) : i.Before j ∨ i = j ∨ j.Before i := by
  obtain ⟨minute, second, millis⟩ := i
  obtain ⟨minute', second', millis'⟩ := j
  unfold Before
  simp only [mk.injEq]
  omega

theorem not_before_self (i : Instant) : ¬ i.Before i := by
  unfold Before
  omega

end Instant

namespace Moment

variable {m n : Moment}

theorem instant_before_iff (hm : m.Regular) (hn : n.Regular) :
    m.instant.Before n.instant ↔
      m.date.Before n.date ∨ m.date = n.date ∧ (m.hour < n.hour ∨ m.hour = n.hour ∧
        (m.minute < n.minute ∨ m.minute = n.minute ∧
          (m.second < n.second ∨ m.second = n.second ∧ m.millis < n.millis))) := by
  have hbounds := hm.hour
  have hbounds₁ := hm.minute
  have hbounds₂ := hn.hour
  have hbounds₃ := hn.minute
  unfold Instant.Before instant minuteNumber
  simp only
  rcases Date.before_trichotomy m.date n.date with hbefore | heq | hafter
  · have hday := Date.dayNumber_lt hm.date hn.date hbefore
    have hminute : 1440 * m.date.dayNumber + 60 * m.hour + m.minute <
        1440 * n.date.dayNumber + 60 * n.hour + n.minute := by omega
    exact iff_of_true (.inl hminute) (.inl hbefore)
  · have hirrefl : ¬ n.date.Before n.date := by
      unfold Date.Before
      omega
    rw [heq]
    simp only [hirrefl, false_or, true_and]
    omega
  · have hday := Date.dayNumber_lt hn.date hm.date hafter
    have hbefore : ¬ m.date.Before n.date := by
      rw [← Date.dayNumber_lt_iff hm.date hn.date]
      omega
    have hne : m.date ≠ n.date := by
      intro heq
      rw [heq] at hday
      exact lt_irrefl _ hday
    simp only [hbefore, hne, false_and, or_false, iff_false]
    omega

/-- **Forms with a year of four digits compare as instants.** -/
theorem text_lt_iff (hm : m.Regular) (hn : n.Regular) (hyear : 0 ≤ m.date.year ∧ m.date.year ≤ 9999)
    (hyear' : 0 ≤ n.date.year ∧ n.date.year ≤ 9999) :
    m.text < n.text ↔ m.instant.Before n.instant := by
  have hmonth := Date.month_le hm.date
  have hmonth' := Date.month_le hn.date
  have hday := Date.day_le hm.date
  have hday' := Date.day_le hn.date
  have hnumeral : Date.yearText m.date.year = Text.ofNatPadded 4 m.date.year.toNat := if_pos hyear
  have hnumeral' : Date.yearText n.date.year = Text.ofNatPadded 4 n.date.year.toNat := if_pos hyear'
  rw [instant_before_iff hm hn]
  obtain ⟨⟨year, month, day⟩, hour, minute, second, millis⟩ := m
  obtain ⟨⟨year', month', day'⟩, hour', minute', second', millis'⟩ := n
  obtain ⟨-, hhour, hminute, hsecond, hmillis⟩ := hm
  obtain ⟨-, hhour', hminute', hsecond', hmillis'⟩ := hn
  unfold text Date.text Date.Before
  simp only at *
  rw [hnumeral, hnumeral']
  have hfour : (10 : Nat) ^ 4 = 10000 := rfl
  have htwo : (10 : Nat) ^ 2 = 100 := rfl
  have hthree : (10 : Nat) ^ 3 = 1000 := rfl
  -- From the year on, each field decides if those before it are equal.
  simp only [List.append_assoc, List.cons_append]
  rw [Text.ofNatPadded_lt_append_iff (by decide) (by omega) (by omega), List.cons_lt_cons_self,
    Text.ofNatPadded_lt_append_iff (by decide) (by omega) (by omega), List.cons_lt_cons_self,
    Text.ofNatPadded_lt_append_iff (by decide) (by omega) (by omega), List.cons_lt_cons_self,
    Text.ofNatPadded_lt_append_iff (by decide) (by omega) (by omega), List.cons_lt_cons_self,
    Text.ofNatPadded_lt_append_iff (by decide) (by omega) (by omega), List.cons_lt_cons_self,
    Text.ofNatPadded_lt_append_iff (by decide) (by omega) (by omega), List.cons_lt_cons_self,
    Text.ofNatPadded_lt_append_iff (by decide) (by omega) (by omega)]
  have hyears : year.toNat < year'.toNat ↔ year < year' := by omega
  have hyears' : year.toNat = year'.toNat ↔ year = year' := by omega
  simp only [List.lt_irrefl, Date.mk.injEq, hyears, hyears', and_false, or_false]
  omega

theorem text_eq_iff (hm : m.Regular) (hn : n.Regular) (hyear : 0 ≤ m.date.year ∧ m.date.year ≤ 9999)
    (hyear' : 0 ≤ n.date.year ∧ n.date.year ≤ 9999) :
    m.text = n.text ↔ m.instant = n.instant := by
  have hlt := text_lt_iff hm hn hyear hyear'
  have hgt := text_lt_iff hn hm hyear' hyear
  constructor
  · intro htext
    rw [htext] at hlt hgt
    rcases m.instant.before_trichotomy n.instant with hbefore | heq | hafter
    · exact absurd (hlt.mpr hbefore) (List.lt_irrefl n.text)
    · exact heq
    · exact absurd (hgt.mpr hafter) (List.lt_irrefl n.text)
  · intro hinstant
    rw [hinstant] at hlt hgt
    rcases lt_trichotomy m.text n.text with hless | heq | hgreater
    · exact absurd (hlt.mp hless) n.instant.not_before_self
    · exact heq
    · exact absurd (hgt.mp hgreater) n.instant.not_before_self

theorem date_instant (h : m.Regular) : m.instant.date = m.date := by
  have hhour := h.hour
  have hminute := h.minute
  have hday : m.minuteNumber / 1440 = m.date.dayNumber := by
    unfold minuteNumber
    omega
  rw [Instant.date, instant, hday, Date.ofDayNumber_dayNumber h.date]

theorem hasFourDigitYear_text_iff :
    Timestamp.HasFourDigitYear m.text ↔ 0 ≤ m.date.year ∧ m.date.year ≤ 9999 := by
  unfold text Date.text
  simp only [List.append_assoc, List.cons_append]
  exact Date.hasFourDigitYear_yearText_iff

end Moment

/-! ## Timestamps -/

namespace Timestamp

variable {value : Text} {i j : Instant}

/-- **The instant that a timestamp denotes** is that of its moment. -/
theorem denotes_iff : Denotes value i ↔ ∃ m, moment value = .ok m ∧ i = m.instant := by
  constructor
  · intro h
    cases h with
    | @zoned z t value hvalue hspells hvalid =>
      obtain ⟨before, after, hbefore, hafter, rfl⟩ := hvalue
      have hmoment := (moment_zoned hspells hbefore hafter).1 hvalid
      have hminute := (Moment.minuteNumber_shift z.moment (-z.offset.minutes)).2.2.2
      refine ⟨_, hmoment, ?_⟩
      unfold Moment.instant
      rw [hminute]
      rfl
    | unzoned hvalue hspells hvalid =>
      exact ⟨_, (moment_unzoned hspells hvalue).1 hvalid, rfl⟩
  · rintro ⟨m, hmoment, rfl⟩
    have hvalue := Text.surrounded_trim value
    obtain ⟨layout, hlayout, hread⟩ :=
      List.exists_of_findSome?_eq_some (moment_eq_ok_iff.mp hmoment)
    rcases List.mem_cons.mp hlayout with rfl | hlayout
    · obtain ⟨parts, hparts, hshift⟩ := Option.map_eq_some_iff.mp hread
      obtain ⟨z, hspells, hvalid, rfl⟩ := Layout.zonedParts?_eq_some_iff_exists.mp hparts
      have hminute := (Moment.minuteNumber_shift z.moment (-z.offset.minutes)).2.2.2
      have hdenotes := Denotes.zoned hvalue hspells hvalid
      rw [Int.sub_eq_add_neg, ← hminute] at hdenotes
      rw [← hshift]
      exact hdenotes
    · obtain ⟨mark, hmark⟩ := Layout.exists_mem_unzoned hlayout
      obtain ⟨u, hspells, hvalid, rfl⟩ :=
        (Layout.unzoned_eq_some_iff hmark (Text.stops_trim value)).mp hread
      exact .unzoned hvalue hspells hvalid

theorem exists_denotes_iff : (∃ form, normalize value = .ok form) ↔ ∃ i, Denotes value i := by
  constructor
  · rintro ⟨form, hform⟩
    obtain ⟨m, hm, -⟩ := normalize_eq_ok_iff.mp hform
    exact ⟨m.instant, denotes_iff.mpr ⟨m, hm, rfl⟩⟩
  · rintro ⟨i, hi⟩
    obtain ⟨m, hm, -⟩ := denotes_iff.mp hi
    exact ⟨m.text, normalize_eq_ok_iff.mpr ⟨m, hm, rfl⟩⟩

theorem Denotes.unique (hi : Denotes value i) (hj : Denotes value j) : i = j := by
  obtain ⟨m, hm, rfl⟩ := denotes_iff.mp hi
  obtain ⟨n, hn, rfl⟩ := denotes_iff.mp hj
  rw [Except.ok.inj (hm.symm.trans hn)]

/-- The form and the instant of a timestamp are those of one moment. -/
theorem exists_regular {form : Text} (hform : normalize value = .ok form) (hi : Denotes value i) :
    ∃ m : Moment, m.Regular ∧ m.text = form ∧ m.instant = i := by
  obtain ⟨m, hm, htext⟩ := normalize_eq_ok_iff.mp hform
  exact ⟨m, regular_of_moment hm, htext, (denotes_iff.mpr ⟨m, hm, rfl⟩).unique hi⟩

theorem hasFourDigitYear_iff_date {form : Text} (hform : normalize value = .ok form)
    (hi : Denotes value i) : HasFourDigitYear form ↔ 0 ≤ i.date.year ∧ i.date.year ≤ 9999 := by
  obtain ⟨m, hregular, rfl, rfl⟩ := exists_regular hform hi
  rw [Moment.date_instant hregular]
  exact Moment.hasFourDigitYear_text_iff

/-- **The canonical forms of timestamps are ordered by time.** Exactly the timestamps
    with a form denote an instant, and each denotes one. If the years of two forms have
    four digits, then the forms compare as the instants do, character by character, and
    they are equal exactly if the instants are, in whatever layouts and with whatever
    offsets the timestamps are written. The year of a form has four digits if the
    instant falls on a day of the years 0 to 9999, and only then. -/
theorem normalize_order :
    (∀ value, (∃ form, normalize value = .ok form) ↔ ∃ i, Denotes value i) ∧
      (∀ value i j, Denotes value i → Denotes value j → i = j) ∧
      (∀ value value' form form' i j, normalize value = .ok form → normalize value' = .ok form' →
        HasFourDigitYear form → HasFourDigitYear form' → Denotes value i → Denotes value' j →
        (form < form' ↔ i.Before j) ∧ (form = form' ↔ i = j)) ∧
      ∀ value form i, normalize value = .ok form → Denotes value i →
        (HasFourDigitYear form ↔ 0 ≤ i.date.year ∧ i.date.year ≤ 9999) := by
  refine ⟨fun value => exists_denotes_iff, fun value i j hi hj => hi.unique hj, ?_,
    fun value form i => hasFourDigitYear_iff_date⟩
  intro value value' form form' i j hform hform' hyear hyear' hi hj
  obtain ⟨m, hregular, rfl, rfl⟩ := exists_regular hform hi
  obtain ⟨n, hregular', rfl, rfl⟩ := exists_regular hform' hj
  have hrange := Moment.hasFourDigitYear_text_iff.mp hyear
  have hrange' := Moment.hasFourDigitYear_text_iff.mp hyear'
  exact ⟨Moment.text_lt_iff hregular hregular' hrange hrange',
    Moment.text_eq_iff hregular hregular' hrange hrange'⟩

/-- The leap second at the end of a year, and the midnight after it at an offset. -/
theorem normalize_order_leap_second :
    ∃ form form' i j, normalize "2016-12-31T23:59:60.5Z".toList = .ok form ∧
      normalize "2017-01-01t01:00:00+01:00".toList = .ok form' ∧
      Denotes "2016-12-31T23:59:60.5Z".toList i ∧
      Denotes "2017-01-01t01:00:00+01:00".toList j ∧
      form = "2016-12-31T23:59:60.500Z".toList ∧ form' = "2017-01-01T00:00:00.000Z".toList ∧
      form < form' ∧ i.Before j ∧ 0 ≤ i.date.year ∧ i.date.year ≤ 9999 := by
  have hform : normalize "2016-12-31T23:59:60.5Z".toList =
      .ok "2016-12-31T23:59:60.500Z".toList := by
    rfl
  have hform' : normalize "2017-01-01t01:00:00+01:00".toList =
      .ok "2017-01-01T00:00:00.000Z".toList := by
    rfl
  have hyear : HasFourDigitYear "2016-12-31T23:59:60.500Z".toList :=
    ⟨"2016".toList, "12-31T23:59:60.500Z".toList, by simp [IsDigits], rfl⟩
  have hyear' : HasFourDigitYear "2017-01-01T00:00:00.000Z".toList :=
    ⟨"2017".toList, "01-01T00:00:00.000Z".toList, by simp [IsDigits], rfl⟩
  obtain ⟨hdenotes, -, horder, hrange⟩ := normalize_order
  obtain ⟨i, hi⟩ := (hdenotes _).mp ⟨_, hform⟩
  obtain ⟨j, hj⟩ := (hdenotes _).mp ⟨_, hform'⟩
  have hless : "2016-12-31T23:59:60.500Z".toList < "2017-01-01T00:00:00.000Z".toList := by decide
  have hbefore := (horder _ _ _ _ i j hform hform' hyear hyear' hi hj).1.mp hless
  exact ⟨_, _, i, j, hform, hform', hi, hj, rfl, rfl, hless, hbefore,
    (hrange _ _ i hform hi).mp hyear⟩

end Timestamp

end TypedTriples
