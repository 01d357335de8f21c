import Mathlib
import TypedTriples.Proofs.Calendar.Accepted
import TypedTriples.Proofs.Calendar.Instant

/-!
# Canonical timestamps

A canonical timestamp spells a moment of the years 0 to 9999 in one way: every
field with its full width, three digits for the fraction, and upper-case letters.
Normalizing leaves the canonical timestamps as they are, and no other text. The
form of a moment outside of these years has a sign in front; it is not canonical,
and no layout with a time of day to the millisecond reads it.

Main definitions:
* `Timestamp.IsCanonical`: the canonical timestamps.
* `Moment.Regular`: the moments that layouts read.

Main results:
* `Layout.regular`: every layout reads regular moments.
* `Timestamp.normalize_of_isCanonical`, `Timestamp.normalize_text_eq_error`: forms
  that are normalized again.
* `Timestamp.normalize_eq_self_iff`: the texts that normalizing leaves as they are.
-/

namespace TypedTriples

open Text (IsDigits)
open Directive (IsRun Stops stops_cons takeWhile_append_of_stops)

/-! ## Specification -/

/-- The canonical timestamps: digits of a date that exists and of a time of day,
    with the letters `T` and `Z`. -/
inductive Timestamp.IsCanonical : Text → Prop
  | parts {year month day hour minute second millis : Text} :
      IsDigits 4 year → IsDigits 2 month → IsDigits 2 day → IsDigits 2 hour → IsDigits 2 minute →
      IsDigits 2 second → IsDigits 3 millis →
      Date.Valid ⟨Text.toNat year, Text.toNat month, Text.toNat day⟩ →
      Text.toNat hour ≤ 23 → Text.toNat minute ≤ 59 → Text.toNat second ≤ 60 →
      IsCanonical (year ++ '-' :: month ++ '-' :: day ++ 'T' :: hour ++ ':' :: minute ++
        ':' :: second ++ '.' :: millis ++ ['Z'])

/-! ## Moments that are read -/

/-- What the moments of all layouts have in common: a date that exists, and a time
    of day in which a minute may have a leap second. -/
structure Moment.Regular (m : Moment) : Prop where
  date : m.date.Valid
  hour : m.hour ≤ 23
  minute : m.minute ≤ 59
  second : m.second ≤ 60
  millis : m.millis < 1000

theorem Moment.Valid.regular {m : Moment} (h : m.Valid) (hmillis : m.millis < 1000) :
    m.Regular := by
  obtain ⟨hdate, -, -, hhour, hminute, hsecond⟩ := h
  exact ⟨hdate, hhour, hminute, hsecond, hmillis⟩

theorem Moment.Regular.shift {m : Moment} (h : m.Regular) (minutes : Int) :
    (m.shift minutes).Regular := by
  obtain ⟨hdate, hhour, hminute, -⟩ := m.minuteNumber_shift minutes
  exact ⟨hdate, hhour, hminute, h.second, h.millis⟩

namespace Layout

variable {t rest digits : Text} {m answer : Moment}

theorem fraction?_lt {n : Nat} (h : fraction? t = some (n, rest)) : n < 1000 := by
  unfold fraction? at h
  split at h
  · rename_i after
    split at h
    · cases h
    · have hlt : millisOf (after.takeWhile Char.isDigit) < 1000 :=
        millisOf_lt fun c hc => List.mem_takeWhile_imp hc
      obtain ⟨rfl, -⟩ := Prod.mk.inj (Option.some.inj h)
      exact hlt
  · obtain ⟨rfl, -⟩ := Prod.mk.inj (Option.some.inj h)
    decide

theorem clock?_millis_lt {date : Date} (h : clock? date t = some (m, rest)) : m.millis < 1000 := by
  obtain ⟨_, _, _, _, _, _, _, -, -, -, hfraction, rfl⟩ := clock?_eq_some_iff.mp h
  exact fraction?_lt hfraction

theorem fields?_millis_lt {mark : Continuation} (h : fields? mark t = some (m, rest)) :
    m.millis < 1000 := by
  have hzero : (0 : Nat) < 1000 := by decide
  cases mark with
  | nothing =>
    obtain ⟨_, -, rfl⟩ := fields?_nothing_iff.mp h
    exact hzero
  | minutes =>
    obtain ⟨_, _, _, _, _, -, -, -, rfl⟩ := fields?_minutes_iff.mp h
    exact hzero
  | seconds =>
    obtain ⟨_, _, -, hclock⟩ := fields?_seconds_iff.mp h
    exact clock?_millis_lt hclock
  | unmarked =>
    obtain ⟨_, _, -, hclock⟩ := fields?_unmarked_iff.mp h
    exact clock?_millis_lt hclock

theorem zonedParts?_regular {offset : Int} (h : zonedParts? t = some (answer, offset)) :
    answer.Regular := by
  obtain ⟨z, hz, hvalid, hparts⟩ := zonedParts?_eq_some_iff_exists.mp h
  obtain ⟨rfl, -⟩ := Prod.mk.inj hparts
  obtain ⟨hdate, hhour, hminute, hsecond, -⟩ := hvalid
  exact ⟨hdate, hhour, hminute, hsecond, millisOf_lt hz.isDigit_fraction⟩

/-- **Every layout reads regular moments.** -/
theorem regular {layout : Text → Option Moment} (hlayout : layout ∈ Timestamp.layouts)
    (h : layout t = some answer) : answer.Regular := by
  rcases List.mem_cons.mp hlayout with rfl | hlayout
  · unfold zoned? at h
    obtain ⟨⟨m, offset⟩, hparts, rfl⟩ := Option.map_eq_some_iff.mp h
    exact (zonedParts?_regular hparts).shift _
  · obtain ⟨mark, hmark⟩ := exists_mem_unzoned hlayout
    obtain ⟨hfields, hvalid⟩ := (unzoned_eq_some_iff_fields? hmark).mp h
    exact hvalid.regular (fields?_millis_lt hfields)

/-! ## Years with a sign -/

theorem digits?_append (h : IsRun Char.isDigit digits) (hrest : Stops Char.isDigit rest) :
    digits? (digits ++ rest) = some (Text.toNat digits, rest) := by
  obtain ⟨hne, hdigits⟩ := h
  unfold digits? upTo?
  rw [List.take_length, takeWhile_append_of_stops hdigits hrest]
  cases digits with
  | nil => exact absurd rfl hne
  | cons c digits => simp

theorem sign_eq_false {sign : Char} (h : sign ∈ ['-', '+']) :
    sign.isDigit = false ∧ Text.isWhite sign = false := by
  simp only [List.mem_cons, List.not_mem_nil, or_false] at h
  rcases h with rfl | rfl <;> simp [Text.isWhite]

/-- A year with a sign is read to its end, however many digits it has. -/
theorem date?_sign {sign : Char} {year month day : Text} (hsign : sign ∈ ['-', '+'])
    (hyear : IsRun Char.isDigit year) (hmonth : IsDigits 2 month) (hday : IsDigits 2 day)
    (rest : Text) :
    ∃ date, date? (sign :: (year ++ '-' :: (month ++ '-' :: (day ++ rest)))) =
      some (date, rest) := by
  have hread : digits? (year ++ '-' :: (month ++ '-' :: (day ++ rest))) = _ :=
    digits?_append hyear (by simp [stops_cons])
  simp only [List.mem_cons, List.not_mem_nil, or_false] at hsign
  rcases hsign with rfl | rfl <;>
    simp [date?, year?, Text.trimStart, Text.isWhite, hread, field?_append hmonth,
      field?_append hday]

theorem zoned?_cons_of_not {c : Char} (hc : c.isDigit = false) (t : Text) :
    zoned? (c :: t) = none := by
  have hyear : exactly? 4 (c :: t) = none := by simp [exactly?, hc]
  unfold zoned? zonedParts?
  rw [hyear]
  rfl

end Layout

/-! ## Forms of moments -/

theorem Moment.Regular.isDigits_time {m : Moment} (h : m.Regular) :
    IsDigits 2 (Text.ofNatPadded 2 m.hour) ∧ IsDigits 2 (Text.ofNatPadded 2 m.minute) ∧
      IsDigits 2 (Text.ofNatPadded 2 m.second) ∧ IsDigits 3 (Text.ofNatPadded 3 m.millis) := by
  obtain ⟨-, hhour, hminute, hsecond, hmillis⟩ := h
  have htwo : ∀ n < 100, IsDigits 2 (Text.ofNatPadded 2 n) :=
    fun n hn => Text.isDigits_ofNatPadded (by decide) hn
  exact ⟨htwo _ (by omega), htwo _ (by omega), htwo _ (by omega),
    Text.isDigits_ofNatPadded (by decide) hmillis⟩

namespace Timestamp

variable {t value form : Text} {m : Moment}

theorem isCanonical_text (h : m.Regular) (hlow : 0 ≤ m.date.year) (hhigh : m.date.year ≤ 9999) :
    IsCanonical m.text := by
  obtain ⟨hyear, hnumber⟩ := Date.isDigits_yearText ⟨hlow, hhigh⟩
  obtain ⟨hhour, hminute, hsecond, hmillis⟩ := h.isDigits_time
  unfold Moment.text Date.text
  refine .parts hyear (Date.isDigits_month h.date) (Date.isDigits_day h.date) hhour hminute hsecond
    hmillis ?_ ?_ ?_ ?_
  all_goals simp only [Text.toNat_ofNatPadded, hnumber]
  · exact h.date
  · exact h.hour
  · exact h.minute
  · exact h.second

/-- The fields of a canonical timestamp are written as they are spelled. -/
theorem text_toNat {year month day hour minute second millis : Text} (hyear : IsDigits 4 year)
    (hmonth : IsDigits 2 month) (hday : IsDigits 2 day) (hhour : IsDigits 2 hour)
    (hminute : IsDigits 2 minute) (hsecond : IsDigits 2 second) (hmillis : IsDigits 3 millis) :
    Moment.text
        { date := ⟨Text.toNat year, Text.toNat month, Text.toNat day⟩
          hour := Text.toNat hour
          minute := Text.toNat minute
          second := Text.toNat second
          millis := Text.toNat millis } =
      year ++ '-' :: month ++ '-' :: day ++ 'T' :: hour ++ ':' :: minute ++ ':' :: second ++
        '.' :: millis ++ ['Z'] := by
  have hlt := Text.toNat_lt hyear.2
  rw [hyear.1] at hlt
  have hyear' : Date.yearText (Text.toNat year) = year := by
    unfold Date.yearText
    rw [if_pos (by omega), Int.toNat_natCast, Text.ofNatPadded_toNat (by decide) hyear]
  unfold Moment.text Date.text
  simp only
  rw [hyear', Text.ofNatPadded_toNat (by decide) hmonth, Text.ofNatPadded_toNat (by decide) hday,
    Text.ofNatPadded_toNat (by decide) hhour, Text.ofNatPadded_toNat (by decide) hminute,
    Text.ofNatPadded_toNat (by decide) hsecond, Text.ofNatPadded_toNat (by decide) hmillis]

/-- **A canonical timestamp is its own form.** It spells the fields of a moment at the
    offset zero, of which every numeral has the width of its field. -/
theorem normalize_of_isCanonical (h : IsCanonical t) : normalize t = .ok t := by
  cases h with
  | @parts year month day hour minute second millis hyear hmonth hday hhour hminute hsecond hmillis
      hdate hhour' hminute' hsecond' =>
    have hseparator : 'T' ∈ ['T', 't', ' '] := by decide
    have hoffset : Offset.none.Spells ['Z'] := .none (by decide)
    have hrun : IsRun Char.isDigit millis := ⟨hmillis.ne_nil (by decide), hmillis.2⟩
    have hspells := Zoned.Spells.parts hyear hmonth hday hseparator hhour hminute hsecond
      (.digits hrun) hoffset
    have hmoment := (@moment_zoned _ _ [] [] hspells rfl rfl).1
      ⟨hdate, hhour', hminute', hsecond', trivial⟩
    have hthree : Layout.millisOf millis = Text.toNat millis := by
      unfold Layout.millisOf
      rw [← hmillis.1, List.take_left]
    unfold Zoned.moment Offset.minutes at hmoment
    simp only [List.nil_append, List.append_nil, Int.neg_zero] at hmoment
    rw [Moment.shift_zero hdate hhour' hminute', hthree] at hmoment
    unfold normalize
    rw [hmoment]
    exact congrArg _ (text_toNat hyear hmonth hday hhour hminute hsecond hmillis)

/-- **No layout reads a year with a sign and a time of day to the millisecond.** Those
    that read the sign end before the offset. -/
theorem ofTrimmed?_sign {sign : Char}
    {year month day hour minute second digits fraction zone : Text} (hsign : sign ∈ ['-', '+'])
    (hyear : IsRun Char.isDigit year) (hmonth : IsDigits 2 month) (hday : IsDigits 2 day)
    (hhour : IsDigits 2 hour) (hminute : IsDigits 2 minute) (hsecond : IsDigits 2 second)
    (hfraction : SpellsFraction digits fraction) (hzone : Layout.EndsTime zone) (hne : zone ≠ []) :
    ofTrimmed? (sign :: (year ++ '-' :: (month ++ '-' :: (day ++ 'T' :: (hour ++ ':' :: (minute ++
      ':' :: (second ++ (fraction ++ zone)))))))) = none := by
  obtain ⟨date, hdate⟩ := Layout.date?_sign hsign hyear hmonth hday ('T' :: (hour ++ ':' ::
    (minute ++ ':' :: (second ++ (fraction ++ zone)))))
  have hfields :=
    Layout.fields?_ne_nil hdate (by decide) hhour hminute hsecond hfraction hzone hne
  unfold ofTrimmed? layouts
  rw [List.findSome?_cons, Layout.zoned?_cons_of_not (Layout.sign_eq_false hsign).1]
  exact List.findSome?_eq_none_iff.mpr (Layout.unzoned_eq_none_of_fields? hfields)

/-- **A form that starts with a sign is not normalized again.** -/
theorem normalize_text_eq_error (h : m.Regular) (hyear : m.date.year < 0 ∨ 9999 < m.date.year) :
    (∃ sign ∈ ['-', '+'], m.text.head? = some sign) ∧ normalize m.text = .error ⟨m.text⟩ := by
  obtain ⟨sign, hsign, hsigned⟩ := Date.yearText_signed hyear
  obtain ⟨hhour, hminute, hsecond, hmillis⟩ := h.isDigits_time
  have hletter : Offset.none.Spells ['Z'] := .none (by decide)
  have hread := ofTrimmed?_sign hsign
    ⟨Text.ofNatPadded_ne_nil 4 m.date.year.natAbs, fun c hc => Text.isDigit_of_mem_ofNatPadded hc⟩
    (Date.isDigits_month h.date) (Date.isDigits_day h.date) hhour hminute hsecond
    (.digits ⟨hmillis.ne_nil (by decide), hmillis.2⟩) (Layout.endsTime_of_spells hletter).1
    (List.cons_ne_nil 'Z' [])
  have htext : m.text = sign :: (Text.ofNatPadded 4 m.date.year.natAbs ++
      '-' :: (Text.ofNatPadded 2 m.date.month ++ '-' :: (Text.ofNatPadded 2 m.date.day ++
        'T' :: (Text.ofNatPadded 2 m.hour ++ ':' :: (Text.ofNatPadded 2 m.minute ++
          ':' :: (Text.ofNatPadded 2 m.second ++
            ('.' :: Text.ofNatPadded 3 m.millis ++ ['Z']))))))) := by
    unfold Moment.text Date.text
    rw [hsigned]
    simp only [List.append_assoc, List.cons_append]
  have hwhite := (Layout.sign_eq_false hsign).2
  have hlast : m.text.getLast? = some 'Z' := List.getLast?_concat
  have htrim : Text.trim ([] ++ m.text ++ []) = m.text :=
    Text.trim_append rfl rfl (by simp [htext]) (by simpa [htext] using hwhite)
      (by simp [hlast, Text.isWhite])
  rw [List.nil_append, List.append_nil] at htrim
  unfold normalize moment
  rw [htrim, htext, hread]
  exact ⟨⟨sign, hsign, rfl⟩, rfl⟩

theorem moment_eq_ok_iff : moment value = .ok m ↔ ofTrimmed? value.trim = some m := by
  unfold moment
  cases ofTrimmed? value.trim with
  | none => simp
  | some n => simp

theorem regular_of_moment (h : moment value = .ok m) : m.Regular := by
  obtain ⟨layout, hlayout, hread⟩ := List.exists_of_findSome?_eq_some (moment_eq_ok_iff.mp h)
  exact Layout.regular hlayout hread

theorem map_eq_ok_iff {ε α β : Type} {f : α → β} {x : Except ε α} {b : β} :
    x.map f = .ok b ↔ ∃ a, x = .ok a ∧ f a = b := by
  cases x with
  | error e => simp [Except.map]
  | ok a => simp [Except.map]

theorem map_eq_error_iff {ε α β : Type} {f : α → β} {x : Except ε α} {e : ε} :
    x.map f = .error e ↔ x = .error e := by
  cases x with
  | error e' => simp [Except.map]
  | ok a => simp [Except.map]

theorem normalize_eq_ok_iff :
    normalize value = .ok form ↔ ∃ m, moment value = .ok m ∧ m.text = form :=
  map_eq_ok_iff

theorem normalize_eq_error_iff {fault : InvalidTimestamp} :
    normalize value = .error fault ↔ moment value = .error fault :=
  map_eq_error_iff

theorem normalizeDate_eq_ok_iff {day : Text} :
    normalizeDate value = .ok day ↔ ∃ m, moment value = .ok m ∧ m.date.text = day :=
  map_eq_ok_iff

theorem normalizeDate_eq_error_iff {fault : InvalidTimestamp} :
    normalizeDate value = .error fault ↔ moment value = .error fault :=
  map_eq_error_iff

/-- **Normalizing leaves exactly the canonical timestamps as they are.** So the form
    of a timestamp is left as it is if its year has four digits; the form of a moment
    of another year starts with a sign and is rejected. Both kinds of other years are
    reached, by an offset at a boundary of the years with four digits. -/
theorem normalize_eq_self_iff :
    (∀ t, normalize t = .ok t ↔ IsCanonical t) ∧
      (∀ value form, normalize value = .ok form → ∃ m, moment value = .ok m ∧ form = m.text ∧
        (0 ≤ m.date.year ∧ m.date.year ≤ 9999 → normalize form = .ok form) ∧
        (m.date.year < 0 ∨ 9999 < m.date.year →
          (∃ sign ∈ ['-', '+'], form.head? = some sign) ∧ normalize form = .error ⟨form⟩)) ∧
      (∃ value m, moment value = .ok m ∧ m.date.year < 0) ∧
      ∃ value m, moment value = .ok m ∧ 9999 < m.date.year := by
  refine ⟨fun t => ⟨?_, normalize_of_isCanonical⟩, ?_, ?_, ?_⟩
  · intro hself
    obtain ⟨m, hm, htext⟩ := normalize_eq_ok_iff.mp hself
    have hregular := regular_of_moment hm
    by_cases hyear : 0 ≤ m.date.year ∧ m.date.year ≤ 9999
    · rw [← htext]
      exact isCanonical_text hregular hyear.1 hyear.2
    · have herror := (normalize_text_eq_error hregular (by omega)).2
      rw [htext, hself] at herror
      cases herror
  · intro value form hform
    obtain ⟨m, hm, rfl⟩ := normalize_eq_ok_iff.mp hform
    have hregular := regular_of_moment hm
    exact ⟨m, hm, rfl,
      fun hyear => normalize_of_isCanonical (isCanonical_text hregular hyear.1 hyear.2),
      normalize_text_eq_error hregular⟩
  · exact ⟨"0000-01-01T00:00:59+00:01".toList, ⟨⟨-1, 12, 31⟩, 23, 59, 59, 0⟩, by rfl, by decide⟩
  · exact ⟨"9999-12-31T23:59:59-00:01".toList, ⟨⟨10000, 1, 1⟩, 0, 0, 59, 0⟩, by rfl, by decide⟩

/-- The form of the moment a minute before the year 0 starts with a sign, and is
    rejected. -/
theorem normalize_eq_self_iff_before_year_zero :
    normalize "0000-01-01T00:00:59+00:01".toList = .ok "-0001-12-31T23:59:59.000Z".toList ∧
      normalize "-0001-12-31T23:59:59.000Z".toList =
        .error ⟨"-0001-12-31T23:59:59.000Z".toList⟩ := by
  have hform : normalize "0000-01-01T00:00:59+00:01".toList =
      .ok "-0001-12-31T23:59:59.000Z".toList := by
    rfl
  obtain ⟨m, hm, -, -, hsigned⟩ := normalize_eq_self_iff.2.1 _ _ hform
  have hmoment : moment "0000-01-01T00:00:59+00:01".toList =
      .ok ⟨⟨-1, 12, 31⟩, 23, 59, 59, 0⟩ := by
    rfl
  have hyear : m.date.year < 0 := by
    rw [Except.ok.inj (hm.symm.trans hmoment)]
    decide
  exact ⟨hform, (hsigned (.inl hyear)).2⟩

end Timestamp

end TypedTriples
