import Mathlib
import TypedTriples.Proofs.Calendar.Canonical
import TypedTriples.Proofs.Calendar.Exclusion

/-!
# Timestamps without an offset

A timestamp without an offset is spelled in fields of one digit or two, with
white space in front of them where the writer likes, and with a year of any
length behind a sign. Each of the four layouts reads the spellings of its own,
and of these exactly the ones whose fields are those of a moment. Nothing is
added to the fields: the canonical form is written with the numbers that were
spelled, and it spells them again.

Main definitions:
* `Unzoned`, `Unzoned.Spells`: its fields and their spellings, by layout.
* `Unzoned.Valid`: fields of a moment.
* `Text.Surrounded`: a text with white space around it.

Main results:
* `Layout.unzoned_eq_some_iff`: what each of the four layouts reads.
* `Timestamp.moment_unzoned`: the moment of a timestamp without an offset.
* `Timestamp.normalize_unzoned`: the canonical form of a timestamp without an
  offset.
-/

namespace TypedTriples

open Text (IsDigits)
open Directive (IsRun Stops stops_append stops_cons stops_of_append takeWhile_append_of_stops)

/-! ## Specification -/

/-- A text with white space around it, or with none. -/
def Text.Surrounded (t value : Text) : Prop :=
  ∃ before after : Text, before.isBlank = true ∧ after.isBlank = true ∧ value = before ++ t ++ after

/-- The fields of a timestamp without an offset. -/
structure Unzoned where
  date : Date
  hour : Nat := 0
  minute : Nat := 0
  second : Nat := 0
  /-- The digits of the fraction of a second. -/
  fraction : Text := []

namespace Unzoned

/-- Whether the fields are those of a moment. -/
def Valid (u : Unzoned) : Prop :=
  u.date.Valid ∧ -262143 ≤ u.date.year ∧ u.date.year ≤ 262142 ∧ u.hour ≤ 23 ∧ u.minute ≤ 59 ∧
    u.second ≤ 60

/-- A spelling of the fields: the date, and behind it nothing, the letter `T` with the
    minutes or with the seconds, or the seconds without the letter. In the last case
    the hour may follow the date at once; a day takes two digits if it can. -/
inductive Spells : Layout.Continuation → Unzoned → Text → Prop
  | dated {width : Nat} {date : Date} {day : Text} : SpellsDate width date day →
      Spells .nothing { date } day
  | untimed {width width₁ width₂ h m : Nat} {date : Date} {day hour minute : Text} :
      SpellsDate width date day → SpellsField width₁ h hour → SpellsField width₂ m minute →
      Spells .minutes { date, hour := h, minute := m } (day ++ 'T' :: hour ++ ':' :: minute)
  | timed {width width₁ width₂ width₃ h m s : Nat} {date : Date}
      {day hour minute second digits fraction : Text} :
      SpellsDate width date day → SpellsField width₁ h hour → SpellsField width₂ m minute →
      SpellsField width₃ s second → SpellsFraction digits fraction →
      Spells .seconds { date, hour := h, minute := m, second := s, fraction := digits }
        (day ++ 'T' :: hour ++ ':' :: minute ++ ':' :: second ++ fraction)
  | spaced {width width₁ width₂ width₃ h m s : Nat} {date : Date}
      {day hour minute second digits fraction : Text} :
      SpellsDate width date day → width = 2 ∨ Stops Char.isDigit hour →
      SpellsField width₁ h hour → SpellsField width₂ m minute → SpellsField width₃ s second →
      SpellsFraction digits fraction →
      Spells .unmarked { date, hour := h, minute := m, second := s, fraction := digits }
        (day ++ hour ++ ':' :: minute ++ ':' :: second ++ fraction)

/-- The fields in full width, with three digits of the fraction. -/
def written (u : Unzoned) : Text :=
  u.date.text ++ 'T' :: Text.ofNatPadded 2 u.hour ++ ':' :: Text.ofNatPadded 2 u.minute ++
    ':' :: Text.ofNatPadded 2 u.second ++ '.' :: (u.fraction ++ ['0', '0', '0']).take 3

/-- The moment of the fields. -/
def moment (u : Unzoned) : Moment where
  date := u.date
  hour := u.hour
  minute := u.minute
  second := u.second
  millis := Layout.millisOf u.fraction

end Unzoned

/-! ## Fields -/

theorem width_bounds {width : Nat} (h : width ∈ [1, 2]) : 0 < width ∧ width ≤ 2 := by
  simp only [List.mem_cons, List.not_mem_nil, or_false] at h
  omega

theorem Directive.IsRun.append_ne {p : Char → Bool} {t rest after : Text} {c : Char}
    (h : IsRun p t) (hc : p c = false) : t ++ rest ≠ c :: after := by
  obtain ⟨hne, hall⟩ := h
  cases t with
  | nil => exact absurd rfl hne
  | cons d t =>
    intro heq
    have hd : p d = true := hall d List.mem_cons_self
    rw [(List.cons.inj heq).1, hc] at hd
    cases hd

namespace Layout

variable {t rest : Text} {n width : Nat}

theorem stops_take_iff {count : Nat} (h : 0 < count) :
    Stops Char.isDigit (rest.take count) ↔ Stops Char.isDigit rest := by
  unfold Stops
  rw [List.head?_take, if_neg (Nat.ne_of_gt h)]

/-- Of the next characters those are read that are digits, up to the first that is
    none. -/
theorem upTo?_eq_some_iff {most : Nat} :
    upTo? most t = some (n, rest) ↔
      ∃ digits, IsRun Char.isDigit digits ∧ digits.length ≤ most ∧
        (digits.length = most ∨ Stops Char.isDigit rest) ∧ t = digits ++ rest ∧
        n = Text.toNat digits := by
  constructor
  · intro h
    unfold upTo? at h
    split at h
    · cases h
    · rename_i hne
      obtain ⟨rfl, rfl⟩ := Prod.mk.inj (Option.some.inj h)
      have hprefix : (t.take most).takeWhile Char.isDigit <+: t :=
        (List.takeWhile_prefix Char.isDigit).trans (List.take_prefix most t)
      have hlength := (List.takeWhile_prefix (l := t.take most) Char.isDigit).length_le
      refine ⟨_, ⟨hne, fun c hc => List.mem_takeWhile_imp hc⟩,
        hlength.trans (List.length_take_le most t), ?_,
        (List.prefix_iff_eq_append.mp hprefix).symm, rfl⟩
      by_cases hfull : ((t.take most).takeWhile Char.isDigit).length = most
      · exact .inl hfull
      · right
        -- What is left of the characters that were looked at starts with no digit.
        have hpos : 0 < most - ((t.take most).takeWhile Char.isDigit).length := by
          have hmost := List.length_take_le most t
          omega
        have hdrop : ((t.take most).takeWhile Char.isDigit ++
            (t.take most).dropWhile Char.isDigit).drop
              ((t.take most).takeWhile Char.isDigit).length =
            (t.take most).dropWhile Char.isDigit := List.drop_left
        rw [List.takeWhile_append_dropWhile, List.drop_take] at hdrop
        have hleft := Directive.stops_dropWhile Char.isDigit (t.take most)
        rw [← hdrop] at hleft
        exact (stops_take_iff hpos).mp hleft
  · rintro ⟨digits, ⟨hne, hdigits⟩, hlength, hends, rfl, rfl⟩
    have hstops : Stops Char.isDigit (rest.take (most - digits.length)) := by
      by_cases hpos : 0 < most - digits.length
      · exact (stops_take_iff hpos).mpr (hends.resolve_left (by omega))
      · rw [Nat.eq_zero_of_not_pos hpos, List.take_zero]
        simp [Stops]
    unfold upTo?
    rw [List.take_append, List.take_of_length_le hlength,
      takeWhile_append_of_stops hdigits hstops]
    cases digits with
    | nil => exact absurd rfl hne
    | cons c digits => simp

/-- A number in a field is read with all the digits that it may have. -/
theorem field?_eq_some_iff :
    field? t = some (n, rest) ↔
      ∃ width field, SpellsField width n field ∧ (width = 2 ∨ Stops Char.isDigit rest) ∧
        t = field ++ rest := by
  unfold field?
  rw [upTo?_eq_some_iff]
  constructor
  · rintro ⟨digits, hrun, hlength, hends, ht, rfl⟩
    have hpos : 0 < digits.length := List.length_pos_iff.mpr hrun.1
    have hwidth : digits.length ∈ [1, 2] := by
      simp only [List.mem_cons, List.not_mem_nil, or_false]
      omega
    refine ⟨digits.length, t.takeWhile Text.isWhite ++ digits,
      .digits ?_ hwidth ⟨rfl, hrun.2⟩, hends, ?_⟩
    · exact List.all_eq_true.mpr fun c hc => List.mem_takeWhile_imp hc
    · rw [List.append_assoc, ← ht]
      exact List.takeWhile_append_dropWhile.symm
  · rintro ⟨width, field, hfield, hends, rfl⟩
    cases hfield with
    | @digits blank digits hblank hwidth hdigits =>
      have hpos := width_bounds hwidth
      have hne := hdigits.ne_nil hpos.1
      refine ⟨digits, hdigits.isRun hpos.1, ?_, ?_, ?_, rfl⟩
      · rw [hdigits.1]
        exact hpos.2
      · rwa [hdigits.1]
      · rw [List.append_assoc]
        refine Text.trimStart_append hblank fun c hc => ?_
        rw [List.head?_append_of_ne_nil _ hne] at hc
        exact Text.isWhite_of_isDigit (hdigits.2 c (List.mem_of_mem_head? hc))

theorem field?_of_spells {field : Text} (h : SpellsField width n field)
    (hends : width = 2 ∨ Stops Char.isDigit rest) : field? (field ++ rest) = some (n, rest) :=
  field?_eq_some_iff.mpr ⟨width, field, h, hends, rfl⟩

theorem digits?_eq_some_iff :
    digits? t = some (n, rest) ↔
      ∃ digits, IsRun Char.isDigit digits ∧ Stops Char.isDigit rest ∧ t = digits ++ rest ∧
        n = Text.toNat digits := by
  constructor
  · intro h
    obtain ⟨digits, hrun, -, hends, rfl, rfl⟩ := upTo?_eq_some_iff.mp h
    refine ⟨digits, hrun, ?_, rfl, rfl⟩
    rcases hends with hlength | hrest
    · rw [List.length_append] at hlength
      have hrest : rest = [] := List.length_eq_zero_iff.mp (by omega)
      simp [hrest, Stops]
    · exact hrest
  · rintro ⟨digits, hrun, hrest, rfl, rfl⟩
    exact digits?_append hrun hrest

theorem year?_of_spells {y : Int} {year : Text} (h : SpellsYear y year)
    (hrest : Stops Char.isDigit rest) : year? (year ++ rest) = some (y, rest) := by
  have htrim (sign : Char) (hsign : Text.isWhite sign = false) (t : Text) :
      Text.trimStart (sign :: t) = sign :: t :=
    List.dropWhile_cons_of_neg (by simp [hsign])
  cases h with
  | unsigned hrun hlength =>
    have hread := upTo?_eq_some_iff.mpr ⟨year, hrun, hlength, .inr hrest, rfl, rfl⟩
    unfold year?
    rw [trimStart_append_digits hrun.1 hrun.2]
    split
    · rename_i heq
      exact absurd heq (hrun.append_ne (by decide))
    · rename_i heq
      exact absurd heq (hrun.append_ne (by decide))
    · rw [hread]
      rfl
  | @positive digits hrun =>
    rw [List.cons_append, year?, htrim '+' rfl]
    simp only [digits?_append hrun hrest, Option.map_some]
  | @negative digits hrun =>
    rw [List.cons_append, year?, htrim '-' rfl]
    simp only [digits?_append hrun hrest, Option.map_some]

theorem year?_sound {y : Int} (ht : Stops Text.isWhite t) (h : year? t = some (y, rest)) :
    ∃ year, SpellsYear y year ∧ t = year ++ rest := by
  have htrim : t.trimStart = t := by
    cases t with
    | nil => rfl
    | cons c t => exact List.dropWhile_cons_of_neg (by simp [stops_cons.mp ht])
  unfold year? at h
  rw [htrim] at h
  split at h
  · obtain ⟨⟨n, left⟩, hread, heq⟩ := Option.map_eq_some_iff.mp h
    obtain ⟨digits, hrun, -, rfl, rfl⟩ := digits?_eq_some_iff.mp hread
    obtain ⟨rfl, rfl⟩ := Prod.mk.inj heq
    exact ⟨_, .negative hrun, rfl⟩
  · obtain ⟨⟨n, left⟩, hread, heq⟩ := Option.map_eq_some_iff.mp h
    obtain ⟨digits, hrun, -, rfl, rfl⟩ := digits?_eq_some_iff.mp hread
    obtain ⟨rfl, rfl⟩ := Prod.mk.inj heq
    exact ⟨_, .positive hrun, rfl⟩
  · obtain ⟨⟨n, left⟩, hread, heq⟩ := Option.map_eq_some_iff.mp h
    obtain ⟨digits, hrun, hlength, -, rfl, rfl⟩ := upTo?_eq_some_iff.mp hread
    obtain ⟨rfl, rfl⟩ := Prod.mk.inj heq
    exact ⟨_, .unsigned hrun hlength, rfl⟩

/-- A date is read with all the digits that its day may have. -/
theorem date?_of_spells {date : Date} {d : Text} (h : SpellsDate width date d)
    (hends : width = 2 ∨ Stops Char.isDigit rest) : date? (d ++ rest) = some (date, rest) := by
  have hhyphen (t : Text) : Stops Char.isDigit ('-' :: t) := stops_cons.mpr rfl
  cases h with
  | @parts width' y m n year month day hyear hmonth hday =>
    have hyear' := year?_of_spells hyear (hhyphen (month ++ '-' :: (day ++ rest)))
    have hmonth' := field?_of_spells hmonth (.inr (hhyphen (day ++ rest)))
    have hday' := field?_of_spells hday hends
    simp only [List.append_assoc, List.cons_append]
    exact date?_eq_some_iff.mpr ⟨y, _, m, _, n, hyear', hmonth', hday', rfl⟩

theorem date?_sound {date : Date} (ht : Stops Text.isWhite t) (h : date? t = some (date, rest)) :
    ∃ width d, SpellsDate width date d ∧ (width = 2 ∨ Stops Char.isDigit rest) ∧ t = d ++ rest := by
  obtain ⟨y, t₁, m, t₂, n, hyear, hmonth, hday, rfl⟩ := date?_eq_some_iff.mp h
  obtain ⟨year, hyear', ht⟩ := year?_sound ht hyear
  obtain ⟨_, month, hmonth', -, ht₁⟩ := field?_eq_some_iff.mp hmonth
  obtain ⟨width, day, hday', hends, ht₂⟩ := field?_eq_some_iff.mp hday
  refine ⟨width, _, .parts hyear' hmonth' hday', hends, ?_⟩
  rw [ht, ht₁, ht₂]
  simp only [List.append_assoc, List.cons_append]

/-! ## The time of day -/

theorem stops_fraction {p : Char → Bool} {digits fraction : Text}
    (h : SpellsFraction digits fraction) (hpoint : p '.' = false) : Stops p fraction := by
  cases h with
  | none => simp [Stops]
  | digits => exact stops_cons.mpr hpoint

theorem fraction?_eq_nil_iff {t : Text} :
    fraction? t = some (n, []) ↔ ∃ digits, SpellsFraction digits t ∧ n = millisOf digits := by
  have hread {digits fraction : Text} (h : SpellsFraction digits fraction) :
      fraction? fraction = some (millisOf digits, []) := by
    have hnil : fraction? (fraction ++ []) = _ :=
      fraction?_append h (by simp [Stops]) (by simp [Stops])
    rwa [List.append_nil] at hnil
  constructor
  · intro h
    obtain ⟨digits, fraction, hfraction, ht⟩ := fraction?_sound h
    rw [List.append_nil] at ht
    rw [← ht] at hfraction
    rw [hread hfraction] at h
    exact ⟨digits, hfraction, (Prod.mk.inj (Option.some.inj h)).1.symm⟩
  · rintro ⟨digits, hfraction, rfl⟩
    exact hread hfraction

theorem clock?_eq_nil_iff {date : Date} {m : Moment} :
    clock? date t = some (m, []) ↔
      ∃ width₁ width₂ width₃ h n s hour minute second digits fraction,
        SpellsField width₁ h hour ∧ SpellsField width₂ n minute ∧ SpellsField width₃ s second ∧
        SpellsFraction digits fraction ∧
        t = hour ++ ':' :: (minute ++ ':' :: (second ++ fraction)) ∧
        m = { date, hour := h, minute := n, second := s, millis := millisOf digits } := by
  have hcolon (t : Text) : Stops Char.isDigit (':' :: t) := stops_cons.mpr rfl
  rw [clock?_eq_some_iff]
  constructor
  · rintro ⟨h, t₁, n, t₂, s, t₃, millis, hhour, hminute, hsecond, hfraction, rfl⟩
    obtain ⟨_, hour, hhour', -, ht⟩ := field?_eq_some_iff.mp hhour
    obtain ⟨_, minute, hminute', -, ht₁⟩ := field?_eq_some_iff.mp hminute
    obtain ⟨_, second, hsecond', -, ht₂⟩ := field?_eq_some_iff.mp hsecond
    obtain ⟨digits, hfraction', rfl⟩ := fraction?_eq_nil_iff.mp hfraction
    refine ⟨_, _, _, h, n, s, hour, minute, second, digits, t₃, hhour', hminute', hsecond',
      hfraction', ?_, rfl⟩
    rw [ht, ht₁, ht₂]
  · rintro ⟨_, _, _, h, n, s, hour, minute, second, digits, fraction, hhour, hminute, hsecond,
      hfraction, rfl, rfl⟩
    have hends : Stops Char.isDigit fraction := stops_fraction hfraction rfl
    exact ⟨h, _, n, _, s, fraction, _, field?_of_spells hhour (.inr (hcolon _)),
      field?_of_spells hminute (.inr (hcolon _)), field?_of_spells hsecond (.inr hends),
      fraction?_eq_nil_iff.mpr ⟨digits, hfraction, rfl⟩, rfl⟩

/-! ## The four layouts -/

section Layouts

variable {layout : Text → Option Moment} {mark : Continuation} {u : Unzoned} {m : Moment}

theorem fields?_of_spells (h : u.Spells mark t) : fields? mark t = some (u.moment, []) := by
  have hletter (t : Text) : Stops Char.isDigit ('T' :: t) := stops_cons.mpr rfl
  have hcolon (t : Text) : Stops Char.isDigit (':' :: t) := stops_cons.mpr rfl
  have hnil : Stops Char.isDigit [] := by simp [Stops]
  cases h with
  | dated hdate =>
    have hdate' := date?_of_spells hdate (.inr hnil)
    rw [List.append_nil] at hdate'
    exact fields?_nothing_iff.mpr ⟨_, hdate', rfl⟩
  | @untimed _ _ _ _ _ _ day hour minute hdate hhour hminute =>
    have hdate' := date?_of_spells hdate (.inr (hletter (hour ++ ':' :: minute)))
    have hhour' := field?_of_spells hhour (.inr (hcolon minute))
    have hminute' := field?_of_spells hminute (.inr hnil)
    rw [List.append_nil] at hminute'
    simp only [List.append_assoc, List.cons_append]
    exact fields?_minutes_iff.mpr ⟨_, _, _, _, _, hdate', hhour', hminute', rfl⟩
  | @timed _ _ _ _ _ _ _ date day hour minute second digits fraction hdate hhour hminute hsecond
      hfraction =>
    have hdate' := date?_of_spells hdate
      (.inr (hletter (hour ++ ':' :: (minute ++ ':' :: (second ++ fraction)))))
    have hclock := (@clock?_eq_nil_iff _ date _).mpr
      ⟨_, _, _, _, _, _, _, _, _, _, _, hhour, hminute, hsecond, hfraction, rfl, rfl⟩
    simp only [List.append_assoc, List.cons_append]
    exact fields?_seconds_iff.mpr ⟨_, _, hdate', hclock⟩
  | @spaced _ _ _ _ _ _ _ date day hour minute second digits fraction hdate hends hhour hminute
      hsecond hfraction =>
    have hdate' := date?_of_spells hdate (hends.imp_right fun hhour =>
      stops_append hhour (hcolon (minute ++ ':' :: (second ++ fraction))))
    have hclock := (@clock?_eq_nil_iff _ date _).mpr
      ⟨_, _, _, _, _, _, _, _, _, _, _, hhour, hminute, hsecond, hfraction, rfl, rfl⟩
    simp only [List.append_assoc, List.cons_append]
    exact fields?_unmarked_iff.mpr ⟨_, _, hdate', hclock⟩

theorem fields?_sound (ht : Stops Text.isWhite t) (h : fields? mark t = some (m, [])) :
    ∃ u : Unzoned, u.Spells mark t ∧ m = u.moment := by
  cases mark with
  | nothing =>
    obtain ⟨date, hdate, rfl⟩ := fields?_nothing_iff.mp h
    obtain ⟨_, day, hday, -, rfl⟩ := date?_sound ht hdate
    rw [List.append_nil]
    exact ⟨_, .dated hday, rfl⟩
  | minutes =>
    obtain ⟨date, t₁, _, t₂, _, hdate, hhour, hminute, rfl⟩ := fields?_minutes_iff.mp h
    obtain ⟨_, day, hday, -, rfl⟩ := date?_sound ht hdate
    obtain ⟨_, hour, hhour', -, rfl⟩ := field?_eq_some_iff.mp hhour
    obtain ⟨_, minute, hminute', -, rfl⟩ := field?_eq_some_iff.mp hminute
    have hspells := Unzoned.Spells.untimed hday hhour' hminute'
    simp only [List.append_assoc, List.cons_append] at hspells
    rw [List.append_nil]
    exact ⟨_, hspells, rfl⟩
  | seconds =>
    obtain ⟨date, rest, hdate, hclock⟩ := fields?_seconds_iff.mp h
    obtain ⟨_, _, _, _, _, _, _, _, _, _, _, hhour, hminute, hsecond, hfraction, rfl, rfl⟩ :=
      clock?_eq_nil_iff.mp hclock
    obtain ⟨_, day, hday, -, rfl⟩ := date?_sound ht hdate
    have hspells := Unzoned.Spells.timed hday hhour hminute hsecond hfraction
    simp only [List.append_assoc, List.cons_append] at hspells
    exact ⟨_, hspells, rfl⟩
  | unmarked =>
    obtain ⟨date, rest, hdate, hclock⟩ := fields?_unmarked_iff.mp h
    obtain ⟨_, _, _, _, _, _, _, _, _, _, _, hhour, hminute, hsecond, hfraction, rfl, rfl⟩ :=
      clock?_eq_nil_iff.mp hclock
    obtain ⟨_, day, hday, hends, rfl⟩ := date?_sound ht hdate
    have hspells := Unzoned.Spells.spaced hday (hends.imp_right stops_of_append) hhour hminute
      hsecond hfraction
    simp only [List.append_assoc, List.cons_append] at hspells
    exact ⟨_, hspells, rfl⟩

/-- **Each layout without an offset reads its spellings** whose fields are those of a
    moment, and nothing else. -/
theorem unzoned_eq_some_iff (hlayout : (layout, mark) ∈ unzoned) (ht : Stops Text.isWhite t) :
    layout t = some m ↔ ∃ u : Unzoned, u.Spells mark t ∧ u.Valid ∧ m = u.moment := by
  rw [unzoned_eq_some_iff_fields? hlayout]
  constructor
  · rintro ⟨hfields, hvalid⟩
    obtain ⟨u, hspells, rfl⟩ := fields?_sound ht hfields
    exact ⟨u, hspells, hvalid, rfl⟩
  · rintro ⟨u, hspells, hvalid, rfl⟩
    exact ⟨fields?_of_spells hspells, hvalid⟩

/-- **The fields of a spelling are the only ones that a layout reads**, also where they
    are not those of a moment. -/
theorem eq_of_fields? {mark' : Continuation} (h : u.Spells mark t)
    (hfields : fields? mark' t = some (m, [])) : mark' = mark ∧ m = u.moment := by
  have hspelled := fields?_of_spells h
  have hmarks := (continuation?_of_fields? hfields).symm.trans (continuation?_of_fields? hspelled)
  obtain rfl := Option.some.inj hmarks
  exact ⟨rfl, (Prod.mk.inj (Option.some.inj (hfields.symm.trans hspelled))).1⟩

theorem exists_layout (mark : Continuation) : ∃ layout, (layout, mark) ∈ unzoned := by
  cases mark <;> simp [unzoned]

end Layouts

end Layout

/-! ## Whole texts -/

namespace Text

/-- A text is what trimming leaves of it, with white space around. -/
theorem surrounded_trim (value : Text) : value.trim.Surrounded value := by
  refine ⟨value.takeWhile isWhite, (value.trimStart.reverse.takeWhile isWhite).reverse, ?_, ?_, ?_⟩
  · exact List.all_eq_true.mpr fun c hc => List.mem_takeWhile_imp hc
  · refine List.all_eq_true.mpr fun c hc => ?_
    exact List.mem_takeWhile_imp (List.mem_reverse.mp hc)
  · have hend : value.trim ++ (value.trimStart.reverse.takeWhile isWhite).reverse =
        value.trimStart := trimEnd_append_takeWhile value.trimStart
    rw [List.append_assoc, hend]
    exact List.takeWhile_append_dropWhile.symm

/-- A text that starts with a character other than white space. -/
def StartsVisible (t : Text) : Prop := ∃ c rest, t = c :: rest ∧ isWhite c = false

theorem StartsVisible.append {t : Text} (h : t.StartsVisible) (after : Text) :
    StartsVisible (t ++ after) := by
  obtain ⟨c, rest, rfl, hc⟩ := h
  exact ⟨c, rest ++ after, rfl, hc⟩

/-- A text that ends with a digit. -/
def EndsInDigit (t : Text) : Prop := ∃ before c, t = before ++ [c] ∧ c.isDigit = true

theorem EndsInDigit.append (before : Text) {t : Text} (h : t.EndsInDigit) :
    EndsInDigit (before ++ t) := by
  obtain ⟨start, c, rfl, hc⟩ := h
  exact ⟨before ++ start, c, (List.append_assoc before start [c]).symm, hc⟩

theorem EndsInDigit.cons (first : Char) {t : Text} (h : t.EndsInDigit) : EndsInDigit (first :: t) :=
  h.append [first]

theorem endsInDigit_of_isRun {t : Text} (h : IsRun Char.isDigit t) : t.EndsInDigit := by
  obtain ⟨hne, hall⟩ := h
  rcases List.eq_nil_or_concat t with rfl | ⟨before, c, rfl⟩
  · exact absurd rfl hne
  · rw [List.concat_eq_append] at hall ⊢
    exact ⟨before, c, rfl, hall c (by simp)⟩

end Text

theorem SpellsField.endsInDigit {width n : Nat} {t : Text} (h : SpellsField width n t) :
    t.EndsInDigit := by
  cases h with
  | digits _ hwidth hdigits =>
    exact (Text.endsInDigit_of_isRun (hdigits.isRun (width_bounds hwidth).1)).append _

theorem SpellsFraction.endsInDigit {digits fraction t : Text} (h : SpellsFraction digits fraction)
    (ht : t.EndsInDigit) : Text.EndsInDigit (t ++ fraction) := by
  cases h with
  | none => rwa [List.append_nil]
  | digits hrun => exact ((Text.endsInDigit_of_isRun hrun).cons '.').append t

theorem SpellsYear.startsVisible {y : Int} {t : Text} (h : SpellsYear y t) : t.StartsVisible := by
  cases h with
  | unsigned hrun _ =>
    obtain ⟨c, rest, rfl⟩ := List.exists_cons_of_ne_nil hrun.1
    exact ⟨c, rest, rfl, Text.isWhite_of_isDigit (hrun.2 c List.mem_cons_self)⟩
  | positive => exact ⟨_, _, rfl, rfl⟩
  | negative => exact ⟨_, _, rfl, rfl⟩

theorem SpellsDate.startsVisible {width : Nat} {date : Date} {t : Text}
    (h : SpellsDate width date t) : t.StartsVisible := by
  cases h with
  | parts hyear => exact (hyear.startsVisible.append _).append _

theorem SpellsDate.endsInDigit {width : Nat} {date : Date} {t : Text} (h : SpellsDate width date t) :
    t.EndsInDigit := by
  cases h with
  | parts _ _ hday => exact (hday.endsInDigit.cons '-').append _

namespace Unzoned

variable {u : Unzoned} {mark : Layout.Continuation} {t value : Text}

theorem Spells.endsInDigit (h : u.Spells mark t) : t.EndsInDigit := by
  cases h with
  | dated hdate => exact hdate.endsInDigit
  | untimed _ _ hminute => exact (hminute.endsInDigit.cons ':').append _
  | timed _ _ _ hsecond hfraction | spaced _ _ _ _ hsecond hfraction =>
    exact hfraction.endsInDigit ((hsecond.endsInDigit.cons ':').append _)

theorem Spells.startsVisible (h : u.Spells mark t) : t.StartsVisible := by
  cases h with
  | dated hdate => exact hdate.startsVisible
  | untimed hdate | timed hdate | spaced hdate =>
    simp only [List.append_assoc]
    exact hdate.startsVisible.append _

/-- White space around a timestamp without an offset is taken away, and nothing else. -/
theorem Spells.trim (h : u.Spells mark t) (hvalue : t.Surrounded value) : value.trim = t := by
  obtain ⟨before, after, hbefore, hafter, rfl⟩ := hvalue
  obtain ⟨first, rest, ht, hfirst⟩ := h.startsVisible
  have hne : t ≠ [] := by
    rw [ht]
    exact List.cons_ne_nil first rest
  have hstops : Stops Text.isWhite t := by
    rw [ht]
    exact stops_cons.mpr hfirst
  refine Text.trim_append hbefore hafter hne hstops fun c hc => ?_
  obtain ⟨start, d, rfl, hd⟩ := h.endsInDigit
  rw [List.getLast?_concat] at hc
  obtain rfl := Option.some.inj hc
  exact Text.isWhite_of_isDigit hd

end Unzoned

namespace Timestamp

variable {u : Unzoned} {mark : Layout.Continuation} {t value : Text} {m : Moment}

theorem ofTrimmed?_unzoned (h : u.Spells mark t) :
    ofTrimmed? t = some m ↔ u.Valid ∧ m = u.moment := by
  constructor
  · intro hread
    obtain ⟨layout, hlayout, hread⟩ := List.exists_of_findSome?_eq_some hread
    rcases List.mem_cons.mp hlayout with rfl | hlayout
    · obtain ⟨parts, hparts, -⟩ := Option.map_eq_some_iff.mp hread
      obtain ⟨z, hzoned⟩ := Layout.zonedParts?_sound hparts
      exact absurd (Layout.fields?_of_spells h) (Layout.fields?_ne_nil_of_spells hzoned mark _)
    · obtain ⟨mark', hmark⟩ := Layout.exists_mem_unzoned hlayout
      obtain ⟨hfields, hvalid⟩ := (Layout.unzoned_eq_some_iff_fields? hmark).mp hread
      obtain ⟨-, rfl⟩ := Layout.eq_of_fields? h hfields
      exact ⟨hvalid, rfl⟩
  · rintro ⟨hvalid, rfl⟩
    obtain ⟨layout, hmark⟩ := Layout.exists_layout mark
    have hlayout : layout ∈ Timestamp.layouts :=
      List.mem_cons_of_mem _ (List.mem_map_of_mem (f := Prod.fst) hmark)
    refine (Layout.findSome?_eq_some_iff Layout.pairwise_excludes).mpr ⟨layout, hlayout, ?_⟩
    exact (Layout.unzoned_eq_some_iff_fields? hmark).mpr ⟨Layout.fields?_of_spells h, hvalid⟩

/-- **The moment of a timestamp without an offset** is the one of its fields; fields
    that are not those of a moment have none. -/
theorem moment_unzoned (h : u.Spells mark t) (hvalue : t.Surrounded value) :
    (u.Valid → moment value = .ok u.moment) ∧ (¬ u.Valid → moment value = .error ⟨t⟩) := by
  unfold moment
  rw [h.trim hvalue]
  constructor
  · intro hvalid
    rw [(ofTrimmed?_unzoned h).mpr ⟨hvalid, rfl⟩]
  · intro hvalid
    have hnone : ofTrimmed? t = none := by
      rw [Option.eq_none_iff_forall_ne_some]
      exact fun m hm => hvalid ((ofTrimmed?_unzoned h).mp hm).1
    rw [hnone]

end Timestamp

/-! ## Forms -/

namespace Unzoned

variable {u : Unzoned} {mark : Layout.Continuation} {t value : Text}

theorem Spells.isDigit_fraction (h : u.Spells mark t) : ∀ c ∈ u.fraction, c.isDigit = true := by
  cases h with
  | dated | untimed => simp
  | timed _ _ _ _ hfraction | spaced _ _ _ _ _ hfraction => exact hfraction.isDigit

theorem text_moment (h : ∀ c ∈ u.fraction, c.isDigit = true) :
    u.moment.text = u.written ++ ['Z'] := by
  unfold written
  rw [← Layout.ofNatPadded_millisOf h]
  rfl

theorem spells_written (h : u.Valid) (hfraction : ∀ c ∈ u.fraction, c.isDigit = true) :
    Spells .seconds { u with fraction := (u.fraction ++ ['0', '0', '0']).take 3 } u.written := by
  have hregular : u.moment.Regular := Moment.Valid.regular h (Layout.millisOf_lt hfraction)
  obtain ⟨hhour, hminute, hsecond, -⟩ := hregular.isDigits_time
  have hthree := Layout.isDigits_take_three hfraction
  exact .timed (spellsDate_text h.1) (spellsField_ofNatPadded hhour)
    (spellsField_ofNatPadded hminute) (spellsField_ofNatPadded hsecond)
    (.digits (hthree.isRun (by decide)))

end Unzoned

namespace Timestamp

/-- **A timestamp without an offset is normalized to the fields that it spells.** Each
    of the four layouts reads exactly the texts, with white space around, that spell
    fields of a moment in its way: a date of the Gregorian calendar in the years from
    -262143 to 262142, and an hour, a minute and a second of the day, where a minute
    may have a leap second. Such a text has a canonical form exactly if its fields are
    those of a moment, however many digits the year or the fraction has. The form has
    the fields in full width with the first three digits of the fraction, and spells
    the same fields again. -/
theorem normalize_unzoned {layout : Text → Option Moment} {mark : Layout.Continuation}
    (hlayout : (layout, mark) ∈ Layout.unzoned) :
    (∀ value, (∃ m, layout value.trim = some m) ↔
      ∃ (u : Unzoned) (t : Text), t.Surrounded value ∧ u.Spells mark t ∧ u.Valid) ∧
      ∀ (u : Unzoned) (t value : Text), t.Surrounded value → u.Spells mark t →
        ((∃ form, normalize value = .ok form) ↔ u.Valid) ∧
        (u.Valid → normalize value = .ok (u.written ++ ['Z']) ∧
          Unzoned.Spells .seconds { u with fraction := (u.fraction ++ ['0', '0', '0']).take 3 }
            u.written) := by
  refine ⟨fun value => ⟨?_, ?_⟩, ?_⟩
  · rintro ⟨m, hread⟩
    obtain ⟨u, hspells, hvalid, -⟩ :=
      (Layout.unzoned_eq_some_iff hlayout (Text.stops_trim value)).mp hread
    exact ⟨u, value.trim, Text.surrounded_trim value, hspells, hvalid⟩
  · rintro ⟨u, t, hvalue, hspells, hvalid⟩
    rw [hspells.trim hvalue]
    exact ⟨u.moment, (Layout.unzoned_eq_some_iff_fields? hlayout).mpr
      ⟨Layout.fields?_of_spells hspells, hvalid⟩⟩
  · intro u t value hvalue hspells
    obtain ⟨hmoment, hinvalid⟩ := moment_unzoned hspells hvalue
    have hnormal : u.Valid → normalize value = .ok (u.written ++ ['Z']) := fun hvalid =>
      normalize_eq_ok_iff.mpr
        ⟨u.moment, hmoment hvalid, Unzoned.text_moment hspells.isDigit_fraction⟩
    refine ⟨⟨?_, fun hvalid => ⟨_, hnormal hvalid⟩⟩, fun hvalid => ⟨hnormal hvalid, ?_⟩⟩
    · rintro ⟨form, hform⟩
      obtain ⟨m, hm, -⟩ := normalize_eq_ok_iff.mp hform
      by_contra hvalid
      rw [hinvalid hvalid] at hm
      cases hm
    · exact Unzoned.spells_written hvalid hspells.isDigit_fraction

/-- The first day that is accepted, with a leap second at its end that follows the date
    at once. -/
theorem normalize_unzoned_first_day :
    ∃ u : Unzoned, u.Spells .unmarked "-0262143-1-\t0123: 59:60.98765".toList ∧ u.Valid ∧
      normalize " -0262143-1-\t0123: 59:60.98765\n".toList = .ok (u.written ++ ['Z']) ∧
      u.written = "-262143-01-01T23:59:60.987".toList := by
  have hyear : SpellsYear (-262143) "-0262143".toList :=
    @SpellsYear.negative "0262143".toList ⟨by simp, by simp⟩
  have hmonth : SpellsField 1 1 "1".toList :=
    @SpellsField.digits 1 [] "1".toList rfl (by simp) (by simp [IsDigits])
  have hday : SpellsField 2 1 "\t01".toList :=
    @SpellsField.digits 2 ['\t'] "01".toList rfl (by simp) (by simp [IsDigits])
  have hhour : SpellsField 2 23 "23".toList :=
    @SpellsField.digits 2 [] "23".toList rfl (by simp) (by simp [IsDigits])
  have hminute : SpellsField 2 59 " 59".toList :=
    @SpellsField.digits 2 [' '] "59".toList rfl (by simp) (by simp [IsDigits])
  have hsecond : SpellsField 2 60 "60".toList :=
    @SpellsField.digits 2 [] "60".toList rfl (by simp) (by simp [IsDigits])
  have hfraction : SpellsFraction "98765".toList ".98765".toList := .digits ⟨by simp, by simp⟩
  have hspells : Unzoned.Spells .unmarked ⟨⟨-262143, 1, 1⟩, 23, 59, 60, "98765".toList⟩
      "-0262143-1-\t0123: 59:60.98765".toList :=
    .spaced (.parts hyear hmonth hday) (.inl rfl) hhour hminute hsecond hfraction
  have hvalid : Unzoned.Valid ⟨⟨-262143, 1, 1⟩, 23, 59, 60, "98765".toList⟩ := by
    refine ⟨by decide, by decide, by decide, by decide, by decide, by decide⟩
  have hvalue : Text.Surrounded "-0262143-1-\t0123: 59:60.98765".toList
      " -0262143-1-\t0123: 59:60.98765\n".toList := ⟨[' '], ['\n'], rfl, rfl, rfl⟩
  have hlayout : (Layout.spaced?, Layout.Continuation.unmarked) ∈ Layout.unzoned := by
    simp [Layout.unzoned]
  obtain ⟨-, hform⟩ := (normalize_unzoned hlayout).2 _ _ _ hvalue hspells
  exact ⟨_, hspells, hvalid, (hform hvalid).1, rfl⟩

end Timestamp

end TypedTriples
