import Mathlib
import TypedTriples.Calendar.Moment

/-!
# Days are numbered one after the other

The number of a day is given by a formula, and the date of a number by a guess
at the year and a walk along the months. Both are right for all years: the
numbers go up by one from each day of the calendar to the next, and numbers and
dates that exist correspond to each other. So a moment can be shifted by any
number of minutes.

Main definitions:
* `Date.next`: the day after a day, by the lengths of the months.

Main results:
* `Date.yearStart_add_one`, `Date.dayNumber_next`: the formula counts days.
* `Date.dayNumber_ofDayNumber`, `Date.ofDayNumber_dayNumber`: numbers and dates.
* `Moment.minuteNumber_shift`, `Moment.shift_zero`: shifts of a moment.
-/

namespace TypedTriples

namespace Date

/-! ## Specification -/

/-- The day after a day: the next of its month, the first of the next month, or
    the first of the next year. -/
def next (date : Date) : Date :=
  if date.day < monthLength date.year date.month then { date with day := date.day + 1 }
  else if date.month < 12 then ⟨date.year, date.month + 1, 1⟩
  else ⟨date.year + 1, 1, 1⟩

/-! ## Years -/

theorem isLeap_iff {year : Int} :
    isLeap year = true ↔ year % 4 = 0 ∧ (year % 100 ≠ 0 ∨ year % 400 = 0) := by
  simp [isLeap]

theorem length_monthLengths (leap : Bool) : (monthLengths leap).length = 12 := by
  cases leap <;> rfl

theorem pos_of_mem_monthLengths {leap : Bool} {length : Nat} (h : length ∈ monthLengths leap) :
    1 ≤ length := by
  have hall : ∀ leap, ∀ length ∈ monthLengths leap, 1 ≤ length := by decide
  exact hall leap length h

theorem sum_monthLengths (leap : Bool) : (monthLengths leap).sum = if leap then 366 else 365 := by
  cases leap <;> rfl

/-- **The next year starts when the months of a year are over.** -/
theorem yearStart_add_one (year : Int) :
    yearStart (year + 1) = yearStart year + (monthLengths (isLeap year)).sum := by
  rw [sum_monthLengths]
  unfold yearStart
  by_cases h : isLeap year = true
  · have hleap := isLeap_iff.mp h
    rw [if_pos h]
    push_cast
    omega
  · have hleap := mt isLeap_iff.mpr h
    rw [if_neg h]
    push_cast
    omega

theorem yearStart_lt (year : Int) : yearStart year < yearStart (year + 1) := by
  rw [yearStart_add_one, sum_monthLengths]
  split <;> omega

/-- Four hundred years have 146097 days: how far a year may start from where it
    would if all years were equally long. -/
theorem yearStart_bounds (year : Int) :
    146097 * year - 396 ≤ 400 * yearStart year ∧ 400 * yearStart year ≤ 146097 * year + 699 := by
  unfold yearStart
  omega

/-- The year of a day has started and is not over. -/
theorem yearOf_spec (number : Int) :
    yearStart (yearOf number) ≤ number ∧ number < yearStart (yearOf number + 1) := by
  unfold yearOf
  simp only
  generalize hguess : 400 * number / 146097 = guess
  have hbefore := yearStart_bounds (guess - 1)
  have hafter := yearStart_bounds (guess + 2)
  split
  · rw [Int.sub_add_cancel]
    omega
  · split
    · have htwo : guess + 1 + 1 = guess + 2 := Int.add_assoc guess 1 1
      rw [htwo]
      omega
    · omega

/-- No other year has. -/
theorem yearOf_eq {number year : Int} (hstart : yearStart year ≤ number)
    (hend : number < yearStart (year + 1)) : yearOf number = year := by
  have hlow := yearStart_bounds year
  have hhigh := yearStart_bounds (year + 1)
  have hbefore := yearStart_lt (year - 1)
  have hafter := yearStart_lt (year + 1)
  rw [Int.sub_add_cancel] at hbefore
  unfold yearOf
  simp only
  have hguess : 400 * number / 146097 = year - 1 ∨ 400 * number / 146097 = year ∨
      400 * number / 146097 = year + 1 := by omega
  rcases hguess with h | h | h
  · rw [h, Int.sub_add_cancel, if_neg (by omega), if_pos hstart]
  · rw [h, if_neg (by omega), if_neg (by omega)]
  · rw [h, if_pos hend, Int.add_sub_cancel]

/-! ## Months -/

/-- A day of a month is found behind the months in front of it. -/
theorem monthAndDay_append (before : List Nat) {length day : Nat} (h : day < length)
    (after : List Nat) (month : Nat) :
    monthAndDay (before ++ length :: after) month (before.sum + day) =
      (month + before.length, day + 1) := by
  induction before generalizing month with
  | nil => simp [monthAndDay, h]
  | cons first before ih =>
    have hrest : first + before.sum + day - first = before.sum + day := by omega
    have hmonth : month + 1 + before.length = month + (before.length + 1) := by omega
    rw [List.cons_append, List.sum_cons, monthAndDay, if_neg (by omega), hrest, ih, hmonth,
      List.length_cons]

theorem exists_month (lengths : List Nat) (days : Nat) (h : days < lengths.sum) :
    ∃ before length after day, lengths = before ++ length :: after ∧ days = before.sum + day ∧
      day < length := by
  induction lengths generalizing days with
  | nil => simp at h
  | cons first lengths ih =>
    rw [List.sum_cons] at h
    by_cases hfirst : days < first
    · exact ⟨[], first, lengths, days, rfl, by simp, hfirst⟩
    · obtain ⟨before, length, after, day, rfl, hdays, hday⟩ := ih (days - first) (by omega)
      refine ⟨first :: before, length, after, day, rfl, ?_, hday⟩
      rw [List.sum_cons]
      omega

/-- A date that exists, by the months before its own and those after. -/
theorem valid_iff_exists {date : Date} :
    date.Valid ↔ ∃ before length after,
      monthLengths (isLeap date.year) = before ++ length :: after ∧
      date.month = before.length + 1 ∧ 1 ≤ date.day ∧ date.day ≤ length := by
  unfold Valid monthLength
  constructor
  · rintro ⟨hfirst, hlast⟩
    split at hlast
    · omega
    · rename_i hmonth
      have hlt : date.month - 1 < (monthLengths (isLeap date.year)).length := by
        by_contra hge
        rw [List.getD_eq_default _ _ (by omega)] at hlast
        omega
      rw [List.getD_eq_getElem _ _ hlt] at hlast
      have hcut := List.take_append_drop (date.month - 1) (monthLengths (isLeap date.year))
      rw [List.drop_eq_getElem_cons hlt] at hcut
      refine ⟨_, _, _, hcut.symm, ?_, hfirst, hlast⟩
      rw [List.length_take]
      omega
  · rintro ⟨before, length, after, hlengths, hmonth, hfirst, hlast⟩
    rw [hlengths, hmonth]
    simpa using And.intro hfirst hlast

theorem monthLength_of_append {date : Date} {before after : List Nat} {length : Nat}
    (hlengths : monthLengths (isLeap date.year) = before ++ length :: after)
    (hmonth : date.month = before.length + 1) : monthLength date.year date.month = length := by
  unfold monthLength
  simp [hlengths, hmonth]

theorem monthStart_of_append {leap : Bool} {before after : List Nat}
    (h : monthLengths leap = before ++ after) : monthStart leap (before.length + 1) = before.sum := by
  show ((monthLengths leap).take (before.length + 1 - 1)).sum = before.sum
  rw [h, Nat.add_sub_cancel, List.take_left]

/-! ## Dates and numbers -/

variable {date : Date}

theorem dayNumber_of_append {before after : List Nat}
    (hlengths : monthLengths (isLeap date.year) = before ++ after)
    (hmonth : date.month = before.length + 1) :
    date.dayNumber = yearStart date.year + before.sum + date.day - 1 := by
  unfold dayNumber
  rw [hmonth, monthStart_of_append hlengths]

/-- **The date of a number exists and has that number.** -/
theorem dayNumber_ofDayNumber (number : Int) :
    (ofDayNumber number).Valid ∧ (ofDayNumber number).dayNumber = number := by
  obtain ⟨hstart, hend⟩ := yearOf_spec number
  rw [yearStart_add_one] at hend
  obtain ⟨before, length, after, day, hlengths, hdays, hday⟩ :=
    exists_month (monthLengths (isLeap (yearOf number)))
      (number - yearStart (yearOf number)).toNat (by omega)
  have hdate : ofDayNumber number = ⟨yearOf number, before.length + 1, day + 1⟩ := by
    unfold ofDayNumber
    simp only
    rw [hlengths, hdays, monthAndDay_append before hday after 1, Nat.add_comm 1]
  rw [hdate]
  constructor
  · exact valid_iff_exists.mpr
      ⟨before, length, after, hlengths, rfl, Nat.le_add_left 1 day, hday⟩
  · rw [dayNumber_of_append hlengths rfl]
    simp only
    omega

theorem dayNumber_mem_year (h : date.Valid) :
    yearStart date.year ≤ date.dayNumber ∧ date.dayNumber < yearStart (date.year + 1) := by
  obtain ⟨before, length, after, hlengths, hmonth, hfirst, hlast⟩ := valid_iff_exists.mp h
  have hsum : (monthLengths (isLeap date.year)).sum = before.sum + (length + after.sum) := by
    rw [hlengths, List.sum_append, List.sum_cons]
  rw [dayNumber_of_append hlengths hmonth, yearStart_add_one, hsum]
  omega

/-- **A date that exists is the date of its number.** -/
theorem ofDayNumber_dayNumber (h : date.Valid) : ofDayNumber date.dayNumber = date := by
  obtain ⟨before, length, after, hlengths, hmonth, hfirst, hlast⟩ := valid_iff_exists.mp h
  obtain ⟨hstart, hend⟩ := dayNumber_mem_year h
  have hdays : (date.dayNumber - yearStart date.year).toNat = before.sum + (date.day - 1) := by
    rw [dayNumber_of_append hlengths hmonth]
    omega
  have hday : date.day - 1 < length := by omega
  unfold ofDayNumber
  simp only
  rw [yearOf_eq hstart hend, hdays, hlengths, monthAndDay_append before hday after 1,
    Nat.add_comm 1, ← hmonth, Nat.sub_add_cancel hfirst]

theorem firstOfMonth {year : Int} (before : List Nat) {after : List Nat} {length : Nat}
    (hlengths : monthLengths (isLeap year) = before ++ length :: after) :
    Valid ⟨year, before.length + 1, 1⟩ ∧
      dayNumber ⟨year, before.length + 1, 1⟩ = yearStart year + before.sum := by
  have hmem : length ∈ monthLengths (isLeap year) := by
    rw [hlengths]
    exact List.mem_append_right before List.mem_cons_self
  constructor
  · exact valid_iff_exists.mpr
      ⟨before, length, after, hlengths, rfl, le_rfl, pos_of_mem_monthLengths hmem⟩
  · rw [dayNumber_of_append hlengths rfl]
    simp only
    omega

theorem firstOfNextMonth {year : Int} {before after : List Nat} {length length' : Nat}
    (hlengths : monthLengths (isLeap year) = before ++ length :: length' :: after) :
    Valid ⟨year, before.length + 1 + 1, 1⟩ ∧
      dayNumber ⟨year, before.length + 1 + 1, 1⟩ = yearStart year + before.sum + length := by
  have hcut : monthLengths (isLeap year) = (before ++ [length]) ++ length' :: after := by
    rw [hlengths, List.append_assoc, List.singleton_append]
  obtain ⟨hvalid, hnumber⟩ := firstOfMonth (before ++ [length]) hcut
  rw [List.length_append, List.length_singleton] at hvalid hnumber
  refine ⟨hvalid, ?_⟩
  rw [hnumber, List.sum_append, List.sum_singleton]
  push_cast
  omega

theorem firstOfYear (year : Int) :
    Valid ⟨year, 1, 1⟩ ∧ dayNumber ⟨year, 1, 1⟩ = yearStart year := by
  obtain ⟨hvalid, hnumber⟩ := @firstOfMonth year [] _ _ rfl
  exact ⟨hvalid, by simpa using hnumber⟩

theorem dayNumber_succ_day (hday : date.day < monthLength date.year date.month) :
    Valid { date with day := date.day + 1 } ∧
      dayNumber { date with day := date.day + 1 } = date.dayNumber + 1 := by
  refine ⟨⟨Nat.le_add_left 1 date.day, hday⟩, ?_⟩
  unfold dayNumber
  push_cast
  omega

/-- **Each day has the number after that of the day before.** -/
theorem dayNumber_next (h : date.Valid) :
    date.next.Valid ∧ date.next.dayNumber = date.dayNumber + 1 := by
  unfold next
  by_cases hday : date.day < monthLength date.year date.month
  · rw [if_pos hday]
    exact dayNumber_succ_day hday
  rw [if_neg hday]
  obtain ⟨before, length, after, hlengths, hmonth, -, hlast⟩ := valid_iff_exists.mp h
  have hnumber := dayNumber_of_append hlengths hmonth
  have hcount : before.length + (after.length + 1) = 12 := by
    rw [← length_monthLengths (isLeap date.year), hlengths, List.length_append, List.length_cons]
  have hend : date.day = length := by
    rw [monthLength_of_append hlengths hmonth] at hday
    omega
  cases after with
  | nil =>
    have hyear : ¬ date.month < 12 := by simp at hcount; omega
    have hsum : (monthLengths (isLeap date.year)).sum = before.sum + length := by
      rw [hlengths, List.sum_append, List.sum_singleton]
    obtain ⟨hvalid, hfirstDay⟩ := firstOfYear (date.year + 1)
    rw [if_neg hyear]
    refine ⟨hvalid, ?_⟩
    rw [hfirstDay, yearStart_add_one, hsum, hnumber, hend]
    omega
  | cons length' after =>
    have hlt : date.month < 12 := by simp at hcount; omega
    obtain ⟨hvalid, hfirstDay⟩ := firstOfNextMonth hlengths
    rw [← hmonth] at hvalid hfirstDay
    rw [if_pos hlt]
    refine ⟨hvalid, ?_⟩
    rw [hfirstDay, hnumber, hend]
    omega

end Date

namespace Moment

/-! ## Shifts -/

/-- What a shift of a moment leaves: a date that exists, an hour and a minute of the
    day, as many minutes later. The seconds stay. -/
theorem minuteNumber_shift (m : Moment) (minutes : Int) :
    (m.shift minutes).date.Valid ∧ (m.shift minutes).hour ≤ 23 ∧ (m.shift minutes).minute ≤ 59 ∧
      (m.shift minutes).minuteNumber = m.minuteNumber + minutes := by
  obtain ⟨hvalid, hnumber⟩ := Date.dayNumber_ofDayNumber ((m.minuteNumber + minutes) / 1440)
  have hnext : (m.shift minutes).minuteNumber = 1440 * ((m.minuteNumber + minutes) / 1440) +
      60 * (((m.minuteNumber + minutes) % 1440).toNat / 60 : Nat) +
      (((m.minuteNumber + minutes) % 1440).toNat % 60 : Nat) := by
    rw [← hnumber]
    rfl
  refine ⟨hvalid, ?_, ?_, ?_⟩
  · show ((m.minuteNumber + minutes) % 1440).toNat / 60 ≤ 23
    omega
  · show ((m.minuteNumber + minutes) % 1440).toNat % 60 ≤ 59
    omega
  · rw [hnext]
    omega

theorem shift_zero {m : Moment} (hdate : m.date.Valid) (hhour : m.hour ≤ 23)
    (hminute : m.minute ≤ 59) : m.shift 0 = m := by
  have hday : (m.minuteNumber + 0) / 1440 = m.date.dayNumber := by
    unfold minuteNumber
    omega
  have htime : ((m.minuteNumber + 0) % 1440).toNat = 60 * m.hour + m.minute := by
    unfold minuteNumber
    omega
  have hhour' : (60 * m.hour + m.minute) / 60 = m.hour := by omega
  have hminute' : (60 * m.hour + m.minute) % 60 = m.minute := by omega
  unfold shift
  simp only
  rw [hday, htime, Date.ofDayNumber_dayNumber hdate, hhour', hminute']

end Moment

end TypedTriples
