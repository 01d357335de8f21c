import TypedTriples.Calendar.Date

/-!
# Moments

A moment is a date and a time of day to the millisecond. The seconds run to
60, so that a leap second has a place of its own at the end of its minute.
Shifting a moment by minutes, as the offset of a time zone does, changes the
date, the hour and the minute and leaves the seconds alone.
-/

namespace TypedTriples

/-- A date and a time of day. -/
structure Moment where
  date : Date
  hour : Nat := 0
  minute : Nat := 0
  second : Nat := 0
  millis : Nat := 0
  deriving DecidableEq, Repr

namespace Moment

/-- The first year that moments are accepted in. -/
def firstYear : Int := -262143

/-- The last year that moments are accepted in. -/
def lastYear : Int := 262142

/-- Whether the date exists and is in range and the time of day exists. -/
def Valid (m : Moment) : Prop :=
  m.date.Valid ∧ firstYear ≤ m.date.year ∧ m.date.year ≤ lastYear ∧
    m.hour ≤ 23 ∧ m.minute ≤ 59 ∧ m.second ≤ 60

instance (m : Moment) : Decidable m.Valid :=
  inferInstanceAs (Decidable (_ ∧ _))

/-- The number of minutes from the first minute of the year 0. -/
def minuteNumber (m : Moment) : Int := 1440 * m.date.dayNumber + 60 * m.hour + m.minute

/-- The moment a number of minutes later. -/
def shift (m : Moment) (minutes : Int) : Moment :=
  let number := m.minuteNumber + minutes
  let time := (number % 1440).toNat
  { m with
    date := Date.ofDayNumber (number / 1440)
    hour := time / 60
    minute := time % 60 }

/-- A moment as date, time with milliseconds and the letter for the zero
    offset. -/
def text (m : Moment) : Text :=
  m.date.text ++ 'T' :: Text.ofNatPadded 2 m.hour ++ ':' :: Text.ofNatPadded 2 m.minute ++
    ':' :: Text.ofNatPadded 2 m.second ++ '.' :: Text.ofNatPadded 3 m.millis ++ ['Z']

end Moment

end TypedTriples
