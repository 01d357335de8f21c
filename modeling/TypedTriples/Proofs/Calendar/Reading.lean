import Mathlib
import TypedTriples.Calendar.Timestamp
import TypedTriples.Proofs.Calendar.DayNumber
import TypedTriples.Proofs.Ruleset.Shapes
import TypedTriples.Proofs.Text.Numeral
import TypedTriples.Proofs.Text.Trim

/-!
# Timestamps with an offset

A timestamp with an offset is spelled in fields of fixed width. The layout for
such timestamps reads every spelling back to its fields, and finds a moment
exactly when the fields are those of one. No other layout reads such a text:
each of them ends before the offset.

Main definitions:
* `Zoned`, `Zoned.Spells`: the fields of a timestamp with an offset and their
  spellings.
* `Zoned.Valid`: fields of a moment and of an offset.
* `Layout.fields?`: the fields that a layout without an offset reads.

Main results:
* `Layout.zonedParts?_eq_some_iff`: what the layout with an offset reads.
* `Layout.fields?_ne_nil_of_spells`: what the others do not.
* `Timestamp.ofTrimmed?_zoned`: the moment of a timestamp with an offset.
-/

namespace TypedTriples

open Text (IsDigits)
open Directive (IsRun Stops stops_cons takeWhile_append_of_stops)

/-! ## Specification -/

/-- An offset as it is written. -/
inductive Offset where
  | none
  /-- Ahead of the offset zero. -/
  | ahead (hours minutes : Nat)
  /-- Behind the offset zero. -/
  | behind (hours minutes : Nat)

namespace Offset

/-- The minutes that an offset is ahead of the offset zero. -/
def minutes : Offset → Int
  | none => 0
  | ahead hours minutes => 60 * hours + minutes
  | behind hours minutes => -(60 * hours + minutes)

/-- Whether the hours are those of a day and the minutes those of an hour. -/
def Valid : Offset → Prop
  | none => True
  | ahead hours minutes | behind hours minutes => hours ≤ 23 ∧ minutes ≤ 59

/-- A spelling of an offset: the letter for none, or a sign, hours and minutes. -/
inductive Spells : Offset → Text → Prop
  | none {letter : Char} : letter ∈ ['Z', 'z'] → Spells none [letter]
  | ahead {hours minutes : Text} : IsDigits 2 hours → IsDigits 2 minutes →
      Spells (ahead (Text.toNat hours) (Text.toNat minutes)) ('+' :: hours ++ ':' :: minutes)
  | behind {sign : Char} {hours minutes : Text} : sign ∈ ['-', '−'] → IsDigits 2 hours →
      IsDigits 2 minutes →
      Spells (behind (Text.toNat hours) (Text.toNat minutes)) (sign :: hours ++ ':' :: minutes)

end Offset

/-- A spelling of the fraction of a second with the given digits: a point and the
    digits, or nothing for none. -/
inductive SpellsFraction : Text → Text → Prop
  | none : SpellsFraction [] []
  | digits {t : Text} : IsRun Char.isDigit t → SpellsFraction t ('.' :: t)

/-- The fields of a timestamp with an offset. -/
structure Zoned where
  date : Date
  hour : Nat
  minute : Nat
  second : Nat
  /-- The digits of the fraction of a second. -/
  fraction : Text
  offset : Offset

namespace Zoned

/-- Whether the fields are those of a moment and of an offset. -/
def Valid (z : Zoned) : Prop :=
  z.date.Valid ∧ z.hour ≤ 23 ∧ z.minute ≤ 59 ∧ z.second ≤ 60 ∧ z.offset.Valid

/-- A spelling of the fields, the year with four digits and the others with two. -/
inductive Spells : Zoned → Text → Prop
  | parts {year month day hour minute second digits fraction zone : Text} {separator : Char}
      {offset : Offset} :
      IsDigits 4 year → IsDigits 2 month → IsDigits 2 day → separator ∈ ['T', 't', ' '] →
      IsDigits 2 hour → IsDigits 2 minute → IsDigits 2 second → SpellsFraction digits fraction →
      offset.Spells zone →
      Spells
        { date := ⟨Text.toNat year, Text.toNat month, Text.toNat day⟩
          hour := Text.toNat hour
          minute := Text.toNat minute
          second := Text.toNat second
          fraction := digits
          offset := offset }
        (year ++ '-' :: month ++ '-' :: day ++ separator :: hour ++ ':' :: minute ++
          ':' :: second ++ fraction ++ zone)

/-- The moment as it is written, the offset aside. -/
def moment (z : Zoned) : Moment where
  date := z.date
  hour := z.hour
  minute := z.minute
  second := z.second
  millis := Layout.millisOf z.fraction

end Zoned

/-! ## Digits -/

theorem Text.isWhite_of_isDigit {c : Char} (h : c.isDigit = true) : Text.isWhite c = false := by
  have hbounds := Text.isDigit_bounds h
  simp [Text.isWhite]
  omega

namespace Layout

variable {t rest digits : Text}

theorem trimStart_append_digits (hne : digits ≠ []) (h : ∀ c ∈ digits, c.isDigit = true) :
    Text.trimStart (digits ++ rest) = digits ++ rest := by
  cases digits with
  | nil => exact absurd rfl hne
  | cons c digits =>
    have hc : Text.isWhite c = false := Text.isWhite_of_isDigit (h c List.mem_cons_self)
    show (c :: (digits ++ rest)).dropWhile Text.isWhite = _
    rw [List.dropWhile_cons_of_neg (by simp [hc])]
    rfl

@[simp] theorem char?_cons (c : Char) (t : Text) : char? c (c :: t) = some t := by simp [char?]

theorem char?_cons_of_ne {c d : Char} (h : d ≠ c) (t : Text) : char? c (d :: t) = none := by
  simp [char?, h]

theorem takeWhile_take_digits {count : Nat} (h : IsDigits count digits) :
    ((digits ++ rest).take count).takeWhile Char.isDigit = digits := by
  obtain ⟨rfl, hdigits⟩ := h
  rw [List.take_left, List.takeWhile_eq_self_iff.mpr hdigits]

theorem exactly?_append {count : Nat} (h : IsDigits count digits) :
    exactly? count (digits ++ rest) = some (Text.toNat digits, rest) := by
  unfold exactly?
  simp only
  rw [takeWhile_take_digits h, if_pos h.1, ← h.1, List.drop_left]

theorem upTo?_append {count : Nat} (hcount : 0 < count) (h : IsDigits count digits) :
    upTo? count (digits ++ rest) = some (Text.toNat digits, rest) := by
  unfold upTo?
  rw [takeWhile_take_digits h]
  cases digits with
  | nil => exact absurd h.1 (by simp; omega)
  | cons c digits => simp

theorem field?_append (h : IsDigits 2 digits) :
    field? (digits ++ rest) = some (Text.toNat digits, rest) := by
  have hne : digits ≠ [] := by
    rintro rfl
    cases h.1
  unfold field?
  rw [trimStart_append_digits hne h.2, upTo?_append (by decide) h]

theorem field?_cons_of_not {c : Char} (hwhite : Text.isWhite c = false) (hc : c.isDigit = false)
    (t : Text) : field? (c :: t) = none := by
  simp [field?, Text.trimStart, hwhite, upTo?, hc]

theorem year?_append (h : IsDigits 4 digits) :
    year? (digits ++ rest) = some ((Text.toNat digits : Int), rest) := by
  have hne : digits ≠ [] := by
    rintro rfl
    cases h.1
  unfold year?
  rw [trimStart_append_digits hne h.2]
  have hread : upTo? 4 (digits ++ rest) = some (Text.toNat digits, rest) :=
    upTo?_append (by decide) h
  cases digits with
  | nil => exact absurd rfl hne
  | cons c digits =>
    have hc := h.2 c List.mem_cons_self
    have hminus : c ≠ '-' := by
      rintro rfl
      cases hc
    have hplus : c ≠ '+' := by
      rintro rfl
      cases hc
    simp only [List.cons_append] at hread ⊢
    simp [hminus, hplus, hread]

/-! ## Parts of a layout -/

theorem date?_append {year month day : Text} (hyear : IsDigits 4 year) (hmonth : IsDigits 2 month)
    (hday : IsDigits 2 day) :
    date? (year ++ '-' :: (month ++ '-' :: (day ++ rest))) =
      some (⟨Text.toNat year, Text.toNat month, Text.toNat day⟩, rest) := by
  simp [date?, year?_append hyear, field?_append hmonth, field?_append hday]

theorem fraction?_append {fraction : Text} (h : SpellsFraction digits fraction)
    (hdigit : Stops Char.isDigit rest) (hpoint : Stops (· == '.') rest) :
    fraction? (fraction ++ rest) = some (millisOf digits, rest) := by
  cases h with
  | none =>
    cases rest with
    | nil => rfl
    | cons c rest =>
      have hc : c ≠ '.' := by simpa using stops_cons.mp hpoint
      have hzero : millisOf [] = 0 := rfl
      simp [fraction?, hc, hzero]
  | digits hrun =>
    obtain ⟨hne, hall⟩ := hrun
    show fraction? ('.' :: (digits ++ rest)) = _
    unfold fraction?
    simp only
    rw [takeWhile_append_of_stops hall hdigit]
    cases digits with
    | nil => exact absurd rfl hne
    | cons c digits => simp

/-- Three digits are kept of a fraction, with zeros for those that it lacks. -/
theorem isDigits_take_three (h : ∀ c ∈ digits, c.isDigit = true) :
    IsDigits 3 ((digits ++ ['0', '0', '0']).take 3) := by
  constructor
  · rw [List.length_take, List.length_append]
    exact Nat.min_eq_left (Nat.le_add_left 3 _)
  · intro c hc
    rcases List.mem_append.mp (List.mem_of_mem_take hc) with hc | hc
    · exact h c hc
    · have hzero : c = '0' := by simpa using hc
      rw [hzero]
      rfl

theorem ofNatPadded_millisOf (h : ∀ c ∈ digits, c.isDigit = true) :
    Text.ofNatPadded 3 (millisOf digits) = (digits ++ ['0', '0', '0']).take 3 :=
  Text.ofNatPadded_toNat (by decide) (isDigits_take_three h)

theorem millisOf_lt (h : ∀ c ∈ digits, c.isDigit = true) : millisOf digits < 1000 := by
  obtain ⟨hlength, hdigits⟩ := isDigits_take_three h
  have hlt := Text.toNat_lt hdigits
  rwa [hlength] at hlt

/-- What may follow a time of day: a text that continues neither its digits nor its
    fraction. -/
def EndsTime (t : Text) : Prop := Stops Char.isDigit t ∧ Stops (· == '.') t

theorem clock?_append {hour minute second fraction : Text} (date : Date) (hhour : IsDigits 2 hour)
    (hminute : IsDigits 2 minute) (hsecond : IsDigits 2 second)
    (hfraction : SpellsFraction digits fraction) (hrest : EndsTime rest) :
    clock? date (hour ++ ':' :: (minute ++ ':' :: (second ++ (fraction ++ rest)))) =
      some ({ date := date, hour := Text.toNat hour, minute := Text.toNat minute,
              second := Text.toNat second, millis := millisOf digits }, rest) := by
  simp [clock?, field?_append hhour, field?_append hminute, field?_append hsecond,
    fraction?_append hfraction hrest.1 hrest.2]

theorem clock?_space (date : Date) (t : Text) : clock? date (' ' :: t) = clock? date t := by
  have hfield : field? (' ' :: t) = field? t := rfl
  unfold clock?
  rw [hfield]

theorem clock?_cons_of_not (date : Date) {c : Char} (hwhite : Text.isWhite c = false)
    (hc : c.isDigit = false) (t : Text) : clock? date (c :: t) = none := by
  unfold clock?
  rw [field?_cons_of_not hwhite hc]
  rfl

/-! ## Offsets -/

theorem endsTime_of_spells {offset : Offset} {zone : Text} (h : offset.Spells zone) :
    EndsTime zone ∧ zone ≠ [] := by
  unfold EndsTime
  cases h with
  | none hletter | behind hletter =>
    simp only [List.mem_cons, List.not_mem_nil, or_false] at hletter
    rcases hletter with rfl | rfl <;> simp [stops_cons]
  | ahead => simp [stops_cons]

theorem offset?_sign {sign : Char} {hours minutes : Text} (hsign : sign ∈ ['+', '-', '−'])
    (hhours : IsDigits 2 hours) (hminutes : IsDigits 2 minutes) :
    offset? (sign :: (hours ++ ':' :: minutes)) =
      if Text.toNat hours ≤ 23 ∧ Text.toNat minutes ≤ 59 then
        some (if sign = '+' then (60 * Text.toNat hours + Text.toNat minutes : Int)
          else -(60 * Text.toNat hours + Text.toNat minutes), [])
      else none := by
  have hend : exactly? 2 (minutes ++ []) = some (Text.toNat minutes, []) :=
    exactly?_append hminutes
  rw [List.append_nil] at hend
  simp only [List.mem_cons, List.not_mem_nil, or_false] at hsign
  rcases hsign with rfl | rfl | rfl <;> simp [offset?, exactly?_append hhours, hend]

theorem offset?_eq {offset : Offset} {zone : Text} (h : offset.Spells zone) :
    (offset.Valid → offset? zone = some (offset.minutes, [])) ∧
      (¬ offset.Valid → offset? zone = none) := by
  cases h with
  | none hletter =>
    simp only [List.mem_cons, List.not_mem_nil, or_false] at hletter
    rcases hletter with rfl | rfl <;> simp [offset?, Offset.Valid, Offset.minutes]
  | ahead hhours hminutes =>
    rw [List.cons_append, offset?_sign (by simp) hhours hminutes]
    exact ⟨fun hvalid => if_pos hvalid, fun hvalid => if_neg hvalid⟩
  | @behind sign hours minutes hsign hhours hminutes =>
    have hplus : sign ≠ '+' := by
      rintro rfl
      simp at hsign
    rw [List.cons_append, offset?_sign (List.mem_cons_of_mem _ hsign) hhours hminutes,
      if_neg hplus]
    exact ⟨fun hvalid => if_pos hvalid, fun hvalid => if_neg hvalid⟩

/-! ## The layout with an offset -/

theorem atEnd?_eq_some_iff {m answer : Moment} {t : Text} :
    atEnd? m t = some answer ↔ t = [] ∧ m.Valid ∧ answer = m := by
  cases t with
  | nil => simp [atEnd?, eq_comm]
  | cons c t => simp [atEnd?]

/-- Fields of a moment and of an offset, of which the moment is in range since its
    year has four digits. -/
theorem valid_moment_iff {z : Zoned} {t : Text} (h : z.Spells t) :
    z.moment.Valid ∧ z.offset.Valid ↔ z.Valid := by
  cases h with
  | parts hyear =>
    obtain ⟨hlength, hdigits⟩ := hyear
    have hlt := Text.toNat_lt hdigits
    rw [hlength] at hlt
    unfold Moment.Valid Zoned.Valid Zoned.moment Moment.firstYear Moment.lastYear
    simp only
    constructor
    · rintro ⟨⟨hdate, -, -, htime⟩, hoffset⟩
      exact ⟨hdate, htime.1, htime.2.1, htime.2.2, hoffset⟩
    · rintro ⟨hdate, hhour, hminute, hsecond, hoffset⟩
      exact ⟨⟨hdate, by omega, by omega, hhour, hminute, hsecond⟩, hoffset⟩

/-- What is left to read of a spelling when its offset is reached. -/
theorem zonedParts?_eq {year month day hour minute second fraction zone : Text} {separator : Char}
    (hyear : IsDigits 4 year) (hmonth : IsDigits 2 month) (hday : IsDigits 2 day)
    (hseparator : separator ∈ ['T', 't', ' ']) (hhour : IsDigits 2 hour)
    (hminute : IsDigits 2 minute) (hsecond : IsDigits 2 second)
    (hfraction : SpellsFraction digits fraction) (hzone : EndsTime zone) :
    zonedParts? (year ++ '-' :: month ++ '-' :: day ++ separator :: hour ++ ':' :: minute ++
        ':' :: second ++ fraction ++ zone) =
      (offset? zone).bind fun (offset, rest) =>
        (atEnd? { date := ⟨Text.toNat year, Text.toNat month, Text.toNat day⟩
                  hour := Text.toNat hour
                  minute := Text.toNat minute
                  second := Text.toNat second
                  millis := millisOf digits } rest).bind fun m => some (m, offset) := by
  have hseparator' : isSeparator separator = true := by
    simpa [isSeparator, or_assoc] using hseparator
  unfold zonedParts?
  dsimp only [bind, Option.bind]
  simp only [List.append_assoc, List.cons_append, exactly?_append hyear, char?_cons,
    exactly?_append hmonth, exactly?_append hday, hseparator', exactly?_append hhour,
    exactly?_append hminute, exactly?_append hsecond,
    fraction?_append hfraction hzone.1 hzone.2, guard_true]
  rfl

/-- **The layout with an offset reads the fields of every spelling**, if they are
    those of a moment and of an offset. -/
theorem zonedParts?_eq_some_iff {z : Zoned} {t : Text} (h : z.Spells t) {answer : Moment × Int} :
    zonedParts? t = some answer ↔ z.Valid ∧ answer = (z.moment, z.offset.minutes) := by
  rw [← valid_moment_iff h]
  cases h with
  | @parts year month day hour minute second digits fraction zone separator offset hyear hmonth hday
      hseparator hhour hminute hsecond hfraction hoffset =>
    obtain ⟨hread, hnone⟩ := offset?_eq hoffset
    rw [zonedParts?_eq hyear hmonth hday hseparator hhour hminute hsecond hfraction
      (endsTime_of_spells hoffset).1]
    by_cases hvalid : offset.Valid
    · rw [hread hvalid]
      simp only [Option.bind_some, Option.bind_eq_some_iff, atEnd?_eq_some_iff, Option.some.injEq]
      constructor
      · rintro ⟨m, ⟨-, hm, rfl⟩, rfl⟩
        exact ⟨⟨hm, hvalid⟩, rfl⟩
      · rintro ⟨⟨hm, -⟩, rfl⟩
        exact ⟨_, ⟨trivial, hm, rfl⟩, rfl⟩
    · rw [hnone hvalid]
      simp [hvalid]

/-! ## The layouts without an offset -/

/-- How a text may go on behind its date. -/
inductive Continuation where
  /-- It ends. -/
  | nothing
  /-- With the letter `T`, an hour and a minute. -/
  | minutes
  /-- With the letter and something else. -/
  | seconds
  /-- Without the letter. -/
  | unmarked
  deriving DecidableEq

/-- The layouts without an offset, each with how the texts that it reads go on. -/
def unzoned : List ((Text → Option Moment) × Continuation) :=
  [(timed?, .seconds), (spaced?, .unmarked), (untimed?, .minutes), (dated?, .nothing)]

theorem exists_mem_unzoned {layout : Text → Option Moment}
    (h : layout ∈ [timed?, spaced?, untimed?, dated?]) : ∃ mark, (layout, mark) ∈ unzoned := by
  obtain ⟨⟨_, mark⟩, hmark, rfl⟩ := List.mem_map.mp (show layout ∈ unzoned.map Prod.fst from h)
  exact ⟨mark, hmark⟩

/-- The fields that such a layout reads, and what it leaves of the text. -/
def fields? (mark : Continuation) (t : Text) : Option (Moment × Text) := do
  let (date, t) ← date? t
  match mark with
  | .nothing => return ({ date }, t)
  | .minutes => do
    let t ← char? 'T' t
    let (hour, t) ← field? t
    let t ← char? ':' t
    let (minute, t) ← field? t
    return ({ date, hour, minute }, t)
  | .seconds => do
    let t ← char? 'T' t
    clock? date t
  | .unmarked => clock? date t

/-- A layout reads its fields to the end of the text, if they are those of a moment. -/
theorem unzoned_eq_some_iff_fields? {layout : Text → Option Moment} {mark : Continuation} {t : Text}
    {m : Moment} (hlayout : (layout, mark) ∈ unzoned) :
    layout t = some m ↔ fields? mark t = some (m, []) ∧ m.Valid := by
  have heq : layout t = (fields? mark t).bind fun read => atEnd? read.1 read.2 := by
    simp only [unzoned, List.mem_cons, List.not_mem_nil, or_false, Prod.mk.injEq] at hlayout
    rcases hlayout with ⟨rfl, rfl⟩ | ⟨rfl, rfl⟩ | ⟨rfl, rfl⟩ | ⟨rfl, rfl⟩ <;>
      simp [timed?, spaced?, untimed?, dated?, fields?, Option.bind_assoc]
  rw [heq, Option.bind_eq_some_iff]
  constructor
  · rintro ⟨⟨m', rest⟩, hfields, hend⟩
    obtain ⟨rfl, hvalid, rfl⟩ := atEnd?_eq_some_iff.mp hend
    exact ⟨hfields, hvalid⟩
  · rintro ⟨hfields, hvalid⟩
    exact ⟨_, hfields, atEnd?_eq_some_iff.mpr ⟨rfl, hvalid, rfl⟩⟩

/-- **The layouts without an offset read no text that goes on behind the time of
    day.** Each ends where the first character is left over: behind the date, behind
    the minutes or behind the fraction. -/
theorem fields?_ne_nil {t hour minute second fraction zone : Text} {date : Date} {separator : Char}
    (hdate : date? t = some (date, separator :: (hour ++ ':' :: (minute ++ ':' ::
      (second ++ (fraction ++ zone))))))
    (hseparator : separator ∈ ['T', 't', ' ']) (hhour : IsDigits 2 hour)
    (hminute : IsDigits 2 minute) (hsecond : IsDigits 2 second)
    (hfraction : SpellsFraction digits fraction) (hzone : EndsTime zone) (hne : zone ≠ [])
    (mark : Continuation) (m : Moment) : fields? mark t ≠ some (m, []) := by
  have hclock := clock?_append date hhour hminute hsecond hfraction hzone
  cases mark with
  | nothing => simp [fields?, hdate]
  | minutes =>
    by_cases hletter : separator = 'T'
    · simp [fields?, hdate, hletter, field?_append hhour, field?_append hminute]
    · simp [fields?, hdate, char?_cons_of_ne hletter]
  | seconds =>
    by_cases hletter : separator = 'T'
    · simp [fields?, hdate, hletter, hclock, hne]
    · simp [fields?, hdate, char?_cons_of_ne hletter]
  | unmarked =>
    simp only [List.mem_cons, List.not_mem_nil, or_false] at hseparator
    rcases hseparator with rfl | rfl | rfl
    · simp [fields?, hdate, clock?_cons_of_not (c := 'T') date rfl rfl]
    · simp [fields?, hdate, clock?_cons_of_not (c := 't') date rfl rfl]
    · simp [fields?, hdate, clock?_space, hclock, hne]

theorem unzoned_eq_none_of_fields? {t : Text} (h : ∀ mark m, fields? mark t ≠ some (m, [])) :
    ∀ layout ∈ [timed?, spaced?, untimed?, dated?], layout t = none := by
  intro layout hlayout
  obtain ⟨mark, hmark⟩ := exists_mem_unzoned hlayout
  rw [Option.eq_none_iff_forall_ne_some]
  intro m hm
  exact h mark m ((unzoned_eq_some_iff_fields? hmark).mp hm).1

theorem fields?_ne_nil_of_spells {z : Zoned} {t : Text} (h : z.Spells t) (mark : Continuation)
    (m : Moment) : fields? mark t ≠ some (m, []) := by
  cases h with
  | parts hyear hmonth hday hseparator hhour hminute hsecond hfraction hoffset =>
    obtain ⟨hzone, hne⟩ := endsTime_of_spells hoffset
    simp only [List.append_assoc, List.cons_append]
    exact fields?_ne_nil (date?_append hyear hmonth hday) hseparator hhour hminute hsecond
      hfraction hzone hne mark m

end Layout

/-! ## Whole texts -/

theorem Offset.Spells.isWhite_eq_false {offset : Offset} {zone : Text} (h : offset.Spells zone) :
    ∀ c ∈ zone.getLast?, Text.isWhite c = false := by
  have hsigned (start : Text) {minutes : Text} (hminutes : IsDigits 2 minutes) :
      ∀ c ∈ (start ++ ':' :: minutes).getLast?, Text.isWhite c = false := by
    intro c hc
    have hne : minutes ≠ [] := hminutes.ne_nil (by decide)
    rw [List.getLast?_append_of_ne_nil _ (List.cons_ne_nil _ _), List.getLast?_cons_of_ne_nil hne]
      at hc
    exact Text.isWhite_of_isDigit (hminutes.2 c (List.mem_of_getLast? hc))
  cases h with
  | none hletter =>
    simp only [List.mem_cons, List.not_mem_nil, or_false] at hletter
    rcases hletter with rfl | rfl <;> simp [Text.isWhite]
  | ahead hhours hminutes => exact hsigned _ hminutes
  | behind hsign hhours hminutes => exact hsigned _ hminutes

/-- White space around a timestamp with an offset is taken away, and nothing else. -/
theorem Zoned.Spells.trim {z : Zoned} {t before after : Text} (h : z.Spells t)
    (hbefore : before.isBlank = true) (hafter : after.isBlank = true) :
    Text.trim (before ++ t ++ after) = t := by
  cases h with
  | @parts year month day hour minute second digits fraction zone separator offset hyear _ _ _ _ _ _
      _ hoffset =>
    have hne : year ≠ [] := hyear.ne_nil (by decide)
    refine Text.trim_append hbefore hafter (by simp) (fun c hc => ?_) (fun c hc => ?_)
    · simp only [List.append_assoc] at hc
      rw [List.head?_append_of_ne_nil _ hne] at hc
      exact Text.isWhite_of_isDigit (hyear.2 c (List.mem_of_head? hc))
    · rw [List.getLast?_append_of_ne_nil _ (Layout.endsTime_of_spells hoffset).2] at hc
      exact hoffset.isWhite_eq_false c hc

namespace Timestamp

/-- **The moment of a timestamp with an offset** is the one that it is written as,
    earlier by the offset; a timestamp whose fields are not those of a moment has
    none. -/
theorem ofTrimmed?_zoned {z : Zoned} {t : Text} (h : z.Spells t) {m : Moment} :
    ofTrimmed? t = some m ↔ z.Valid ∧ m = z.moment.shift (-z.offset.minutes) := by
  have hrest : [Layout.timed?, Layout.spaced?, Layout.untimed?, Layout.dated?].findSome?
      (fun layout => layout t) = none :=
    List.findSome?_eq_none_iff.mpr
      (Layout.unzoned_eq_none_of_fields? (Layout.fields?_ne_nil_of_spells h))
  unfold ofTrimmed? layouts
  rw [List.findSome?_cons]
  unfold Layout.zoned?
  by_cases hvalid : z.Valid
  · have hread := (Layout.zonedParts?_eq_some_iff h).mpr ⟨hvalid, rfl⟩
    rw [hread]
    simp [hvalid, eq_comm]
  · have hnone : Layout.zonedParts? t = none := by
      rw [Option.eq_none_iff_forall_ne_some]
      exact fun answer hread => hvalid ((Layout.zonedParts?_eq_some_iff h).mp hread).1
    rw [hnone]
    simp [hvalid, hrest]

end Timestamp

end TypedTriples
