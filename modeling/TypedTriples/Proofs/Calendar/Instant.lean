import Mathlib
import TypedTriples.Proofs.Calendar.Reading
import TypedTriples.Proofs.Calendar.Written

/-!
# Timestamps with an offset keep their instant

A timestamp with an offset is normalized to the same instant at the offset zero.
The minutes of the two differ by the offset, counted along the days of the
calendar, so that days, months and years are carried over, leap years and the
ends of the years with four digits included. Seconds stay as they are, also
those of a leap second, and a fraction is cut off behind its third digit.

Main results:
* `Timestamp.moment_zoned`: the moment of a timestamp with an offset.
* `Timestamp.normalize_zoned`: the canonical form of a timestamp with an offset.
-/

namespace TypedTriples

open Text (IsDigits)

theorem SpellsFraction.isDigit {digits fraction : Text} (h : SpellsFraction digits fraction) :
    ∀ c ∈ digits, c.isDigit = true := by
  cases h with
  | none => simp
  | digits hrun => exact hrun.2

theorem Zoned.Spells.isDigit_fraction {z : Zoned} {t : Text} (h : z.Spells t) :
    ∀ c ∈ z.fraction, c.isDigit = true := by
  cases h with
  | parts _ _ _ _ _ _ _ hfraction => exact hfraction.isDigit

namespace Timestamp

variable {z : Zoned} {t before after : Text}

/-- A timestamp with an offset has a moment exactly if its fields are those of one,
    which is then earlier by the offset. -/
theorem moment_zoned (h : z.Spells t) (hbefore : before.isBlank = true)
    (hafter : after.isBlank = true) :
    (z.Valid → moment (before ++ t ++ after) = .ok (z.moment.shift (-z.offset.minutes))) ∧
      (¬ z.Valid → moment (before ++ t ++ after) = .error ⟨t⟩) := by
  unfold moment
  rw [h.trim hbefore hafter]
  constructor
  · intro hvalid
    rw [(ofTrimmed?_zoned h).mpr ⟨hvalid, rfl⟩]
  · intro hvalid
    have hnone : ofTrimmed? t = none := by
      rw [Option.eq_none_iff_forall_ne_some]
      exact fun m hm => hvalid ((ofTrimmed?_zoned h).mp hm).1
    rw [hnone]

theorem text_shift (h : z.Spells t) (minutes : Int) :
    (z.moment.shift minutes).text =
      (z.moment.shift minutes).date.text ++
        'T' :: Text.ofNatPadded 2 (z.moment.shift minutes).hour ++
        ':' :: Text.ofNatPadded 2 (z.moment.shift minutes).minute ++
        ':' :: Text.ofNatPadded 2 z.second ++ '.' :: (z.fraction ++ ['0', '0', '0']).take 3 ++
        ['Z'] := by
  rw [← Layout.ofNatPadded_millisOf h.isDigit_fraction]
  rfl

/-- **A timestamp with an offset is normalized to the same instant at the offset
    zero.** Whatever white space stands around it, it has a canonical form exactly
    if its fields are those of a moment and of an offset. The form spells a date that
    exists, and has an hour and a minute of the day, the seconds of the timestamp and
    the first three digits of its fraction, with zeros behind if it has fewer. The
    minutes from the first day on, with 1440 for each day, are those of the
    timestamp without those of the offset; the number of a day is one more than that
    of the day before. -/
theorem normalize_zoned (h : z.Spells t) (hbefore : before.isBlank = true)
    (hafter : after.isBlank = true) :
    ((∃ form, normalize (before ++ t ++ after) = .ok form) ↔ z.Valid) ∧
      (z.Valid → ∃ (date : Date) (hour minute : Nat),
        normalize (before ++ t ++ after) =
          .ok (date.text ++ 'T' :: Text.ofNatPadded 2 hour ++ ':' :: Text.ofNatPadded 2 minute ++
            ':' :: Text.ofNatPadded 2 z.second ++ '.' :: (z.fraction ++ ['0', '0', '0']).take 3 ++
            ['Z']) ∧
        date.Valid ∧ SpellsDate 2 date date.text ∧ hour ≤ 23 ∧ minute ≤ 59 ∧
        1440 * date.dayNumber + 60 * hour + minute =
          1440 * z.date.dayNumber + 60 * z.hour + z.minute - z.offset.minutes) ∧
      ∀ date : Date, date.Valid →
        date.next.Valid ∧ date.next.dayNumber = date.dayNumber + 1 := by
  obtain ⟨hmoment, hinvalid⟩ := moment_zoned h hbefore hafter
  have hnormal : z.Valid → normalize (before ++ t ++ after) =
      .ok (z.moment.shift (-z.offset.minutes)).text := by
    intro hvalid
    unfold normalize
    rw [hmoment hvalid]
    rfl
  refine ⟨⟨?_, fun hvalid => ⟨_, hnormal hvalid⟩⟩, ?_, fun date => Date.dayNumber_next⟩
  · rintro ⟨form, hform⟩
    by_contra hvalid
    unfold normalize at hform
    rw [hinvalid hvalid] at hform
    cases hform
  · intro hvalid
    obtain ⟨hdate, hhour, hminute, hnumber⟩ :=
      Moment.minuteNumber_shift z.moment (-z.offset.minutes)
    exact ⟨_, _, _, (hnormal hvalid).trans (congrArg _ (text_shift h _)), hdate,
      spellsDate_text hdate, hhour, hminute, hnumber⟩

/-- A leap second on the day before a leap day, behind the offset zero by a minute. -/
theorem normalize_zoned_leap_second :
    ∃ date : Date, normalize (['\t'] ++ "2024-02-28T23:59:60.99989−00:01".toList ++ [' ']) =
        .ok (date.text ++ "T00:00:60.999Z".toList) ∧
      date = ⟨2024, 2, 29⟩ ∧ SpellsDate 2 ⟨2024, 2, 29⟩ date.text ∧
      date.text = "2024-02-29".toList := by
  have hoffset : Offset.Spells (.behind 0 1) "−00:01".toList :=
    @Offset.Spells.behind '−' "00".toList "01".toList (by decide) (by simp [IsDigits])
      (by simp [IsDigits])
  have hspells : Zoned.Spells ⟨⟨2024, 2, 28⟩, 23, 59, 60, "99989".toList, .behind 0 1⟩
      "2024-02-28T23:59:60.99989−00:01".toList :=
    @Zoned.Spells.parts "2024".toList "02".toList "28".toList "23".toList "59".toList "60".toList
      "99989".toList ".99989".toList "−00:01".toList 'T' (.behind 0 1) (by simp [IsDigits])
      (by simp [IsDigits]) (by simp [IsDigits]) (by decide) (by simp [IsDigits])
      (by simp [IsDigits]) (by simp [IsDigits]) (.digits ⟨by simp, by simp⟩) hoffset
  have hvalid : Zoned.Valid ⟨⟨2024, 2, 28⟩, 23, 59, 60, "99989".toList, .behind 0 1⟩ :=
    ⟨by decide, by decide, by decide, by decide, by decide, by decide⟩
  obtain ⟨-, hform, -⟩ := @normalize_zoned _ _ ['\t'] [' '] hspells rfl rfl
  obtain ⟨date, hour, minute, hnormal, hdate, hwritten, hhour, hminute, hnumber⟩ := hform hvalid
  -- The minutes from the first day on leave one day, and one minute of it.
  have hbefore : Date.dayNumber ⟨2024, 2, 28⟩ = 739309 := by decide
  rw [hbefore] at hnumber
  simp only [Offset.minutes] at hnumber
  obtain rfl : hour = 0 := by omega
  obtain rfl : minute = 0 := by omega
  have hday : date.dayNumber = 739310 := by omega
  obtain rfl : date = ⟨2024, 2, 29⟩ := by
    rw [← Date.ofDayNumber_dayNumber hdate, hday]
    decide
  exact ⟨⟨2024, 2, 29⟩, hnormal, rfl, hwritten, by decide⟩

/-- The day after the last year with four digits has a year with a sign. -/
example : normalize "9999-12-31T23:59:60-00:01".toList =
    .ok "+10000-01-01T00:00:60.000Z".toList := by
  rfl

end Timestamp

end TypedTriples
