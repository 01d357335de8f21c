import TypedTriples.Text.Basic

/-!
# Dates

Days of the Gregorian calendar, extended to all years before and after its
introduction; the year 0 is a leap year. Days are numbered from the first day
of the year 0.

Main definitions:
* `Date.Valid`: the dates that exist.
* `Date.dayNumber`, `Date.ofDayNumber`: the number of a day and back.
-/

namespace TypedTriples

/-- A year, a month and a day of the month, both counted from one. -/
structure Date where
  year : Int
  month : Nat
  day : Nat
  deriving DecidableEq, Repr

namespace Date

/-- Every fourth year is a leap year, but of the full centuries only every
    fourth. -/
def isLeap (year : Int) : Bool := year % 4 == 0 && (year % 100 != 0 || year % 400 == 0)

/-- The lengths of the months of a year. -/
def monthLengths (leap : Bool) : List Nat :=
  [31, if leap then 29 else 28, 31, 30, 31, 30, 31, 31, 30, 31, 30, 31]

/-- The length of a month, zero if there is no such month. -/
def monthLength (year : Int) (month : Nat) : Nat :=
  if month = 0 then 0 else (monthLengths (isLeap year)).getD (month - 1) 0

/-- Whether the year has the month and the month the day. -/
def Valid (date : Date) : Prop := 1 ≤ date.day ∧ date.day ≤ monthLength date.year date.month

instance (date : Date) : Decidable date.Valid :=
  inferInstanceAs (Decidable (_ ∧ _))

/-! ## Day numbers -/

/-- The number of the first day of a year. -/
def yearStart (year : Int) : Int :=
  365 * year + (year + 3) / 4 - (year + 99) / 100 + (year + 399) / 400

/-- The days of a year before a month. -/
def monthStart (leap : Bool) (month : Nat) : Nat :=
  ((monthLengths leap).take (month - 1)).foldr (· + ·) 0

/-- The number of a day. -/
def dayNumber (date : Date) : Int :=
  yearStart date.year + monthStart (isLeap date.year) date.month + date.day - 1

/-- The year that holds a day. Four hundred years have 146097 days, which
    gives the year up to one. -/
def yearOf (number : Int) : Int :=
  let guess := 400 * number / 146097
  if number < yearStart guess then guess - 1
  else if yearStart (guess + 1) ≤ number then guess + 1
  else guess

/-- The month and the day of the month, given the lengths of the months from
    `month` on and the days since the start of that month. -/
def monthAndDay : List Nat → Nat → Nat → Nat × Nat
  | [], month, days => (month, days + 1)
  | length :: lengths, month, days =>
    if days < length then (month, days + 1) else monthAndDay lengths (month + 1) (days - length)

/-- The date of a day number. -/
def ofDayNumber (number : Int) : Date :=
  let year := yearOf number
  let (month, day) := monthAndDay (monthLengths (isLeap year)) 1 (number - yearStart year).toNat
  ⟨year, month, day⟩

/-! ## Written form -/

/-- A year with four digits; outside 0 to 9999 with a sign and at least four
    digits. -/
def yearText (year : Int) : Text :=
  if 0 ≤ year ∧ year ≤ 9999 then Text.ofNatPadded 4 year.toNat
  else (if year < 0 then '-' else '+') :: Text.ofNatPadded 4 year.natAbs

/-- A date as year, month and day with hyphens between. Timestamps and dates on
    their own are written with this form, and with one rule for their years. -/
def text (date : Date) : Text :=
  yearText date.year ++ '-' :: Text.ofNatPadded 2 date.month ++ '-' :: Text.ofNatPadded 2 date.day

end Date

end TypedTriples
