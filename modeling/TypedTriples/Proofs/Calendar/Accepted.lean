import Mathlib
import TypedTriples.Proofs.Calendar.Reading

/-!
# What the layouts accept

A text that is read as a timestamp with an offset is a spelling of one: every
reader of a part takes nothing but a spelling of that part, and leaves what
follows. With what the layout makes of a spelling this says exactly which texts
it reads, and as what. The layouts without an offset are taken apart into the
readers of their parts.

Main results:
* `Layout.zonedParts?_sound`: a text that is read with an offset is a spelling.
* `Layout.zonedParts?_eq_some_iff_exists`: the texts that are read with an
  offset, and their fields.
* `Layout.date?_eq_some_iff`, `Layout.clock?_eq_some_iff`: the parts of a date and
  of a time of day.
* `Layout.fields?_seconds_iff`, `Layout.fields?_unmarked_iff`,
  `Layout.fields?_minutes_iff`, `Layout.fields?_nothing_iff`: the parts that the
  other layouts read, one after the other.
-/

namespace TypedTriples.Layout

open Text (IsDigits)
open Directive (IsRun)

variable {α : Type} {t rest : Text} {m : Moment}

/-! ## Parts of a layout -/

theorem char?_eq_some_iff {c : Char} : char? c t = some rest ↔ t = c :: rest := by
  cases t with
  | nil => simp [char?]
  | cons d t => by_cases h : d = c <;> simp [char?, h]

theorem exactly?_sound {count n : Nat} (h : exactly? count t = some (n, rest)) :
    ∃ digits, IsDigits count digits ∧ t = digits ++ rest ∧ n = Text.toNat digits := by
  unfold exactly? at h
  simp only at h
  split at h
  · rename_i hlength
    obtain ⟨rfl, rfl⟩ := Prod.mk.inj (Option.some.inj h)
    -- The digits are as many as the characters that were looked at, so they are all of them.
    have hprefix : (t.take count).takeWhile Char.isDigit <+: t.take count :=
      List.takeWhile_prefix Char.isDigit
    have hle : (t.take count).length ≤ ((t.take count).takeWhile Char.isDigit).length := by
      rw [hlength]
      exact List.length_take_le count t
    have hall : (t.take count).takeWhile Char.isDigit = t.take count :=
      hprefix.eq_of_length_le hle
    rw [hall] at hlength ⊢
    refine ⟨t.take count, ⟨hlength, ?_⟩, (List.take_append_drop count t).symm, rfl⟩
    exact List.takeWhile_eq_self_iff.mp hall
  · cases h

theorem exactly?_bind_sound {count : Nat} {next : Nat × Text → Option α} {a : α}
    (h : (exactly? count t).bind next = some a) :
    ∃ digits rest, IsDigits count digits ∧ t = digits ++ rest ∧
      next (Text.toNat digits, rest) = some a := by
  obtain ⟨⟨n, rest⟩, hread, hnext⟩ := Option.bind_eq_some_iff.mp h
  obtain ⟨digits, hdigits, rfl, rfl⟩ := exactly?_sound hread
  exact ⟨digits, rest, hdigits, rfl, hnext⟩

theorem char?_bind_sound {c : Char} {next : Text → Option α} {a : α}
    (h : (char? c t).bind next = some a) : ∃ rest, t = c :: rest ∧ next rest = some a := by
  obtain ⟨rest, hread, hnext⟩ := Option.bind_eq_some_iff.mp h
  exact ⟨rest, char?_eq_some_iff.mp hread, hnext⟩

theorem fraction?_sound {n : Nat} (h : fraction? t = some (n, rest)) :
    ∃ digits fraction, SpellsFraction digits fraction ∧ t = fraction ++ rest := by
  unfold fraction? at h
  split at h
  · rename_i after
    split at h
    · cases h
    · rename_i hne
      obtain ⟨-, rfl⟩ := Prod.mk.inj (Option.some.inj h)
      have hrun : IsRun Char.isDigit (after.takeWhile Char.isDigit) :=
        ⟨hne, fun c hc => List.mem_takeWhile_imp hc⟩
      refine ⟨_, _, .digits hrun, ?_⟩
      rw [List.cons_append, List.prefix_iff_eq_append.mp (List.takeWhile_prefix Char.isDigit)]
  · obtain ⟨-, rfl⟩ := Prod.mk.inj (Option.some.inj h)
    exact ⟨[], [], .none, rfl⟩

theorem offset?_sound {n : Int} (h : offset? t = some (n, rest)) :
    ∃ offset zone, Offset.Spells offset zone ∧ t = zone ++ rest := by
  unfold offset? at h
  split at h
  · rename_i c after
    split at h
    · rename_i hletter
      obtain ⟨-, rfl⟩ := Prod.mk.inj (Option.some.inj h)
      refine ⟨.none, [c], .none ?_, rfl⟩
      simpa using hletter
    · split at h
      · rename_i hsign
        obtain ⟨hours, t₁, hhours, hafter, h⟩ := exactly?_bind_sound h
        obtain ⟨t₂, ht₁, h⟩ := char?_bind_sound h
        obtain ⟨minutes, t₃, hminutes, ht₂, h⟩ := exactly?_bind_sound h
        simp only [pure, Option.ite_none_right_eq_some, Option.some.injEq, Prod.mk.injEq] at h
        obtain ⟨-, -, rfl⟩ := h
        rw [hafter, ht₁, ht₂]
        by_cases hplus : c = '+'
        · refine ⟨_, '+' :: hours ++ ':' :: minutes, .ahead hhours hminutes, ?_⟩
          simp [hplus]
        · refine ⟨_, c :: hours ++ ':' :: minutes, .behind ?_ hhours hminutes, ?_⟩
          · simpa [hplus] using hsign
          · simp
      · cases h
  · cases h

/-! ## The layout with an offset -/

/-- **A text that is read with an offset spells its fields.** -/
theorem zonedParts?_sound {parts : Moment × Int} (h : zonedParts? t = some parts) :
    ∃ z : Zoned, z.Spells t := by
  unfold zonedParts? at h
  obtain ⟨year, t₁, hyear, ht, h⟩ := exactly?_bind_sound h
  obtain ⟨t₂, ht₁, h⟩ := char?_bind_sound h
  obtain ⟨month, t₃, hmonth, ht₂, h⟩ := exactly?_bind_sound h
  obtain ⟨t₄, ht₃, h⟩ := char?_bind_sound h
  obtain ⟨day, t₅, hday, ht₄, h⟩ := exactly?_bind_sound h
  cases t₅ with
  | nil => cases h
  | cons separator t₅ =>
    obtain ⟨_, ⟨⟩, h⟩ := Option.bind_eq_some_iff.mp h
    obtain ⟨_, hguard, h⟩ := Option.bind_eq_some_iff.mp h
    obtain ⟨hour, t₆, hhour, ht₅, h⟩ := exactly?_bind_sound h
    obtain ⟨t₇, ht₆, h⟩ := char?_bind_sound h
    obtain ⟨minute, t₈, hminute, ht₇, h⟩ := exactly?_bind_sound h
    obtain ⟨t₉, ht₈, h⟩ := char?_bind_sound h
    obtain ⟨second, t₁₀, hsecond, ht₉, h⟩ := exactly?_bind_sound h
    obtain ⟨⟨_, t₁₁⟩, hfraction, h⟩ := Option.bind_eq_some_iff.mp h
    obtain ⟨⟨_, t₁₂⟩, hoffset, h⟩ := Option.bind_eq_some_iff.mp h
    obtain ⟨_, hend, -⟩ := Option.bind_eq_some_iff.mp h
    obtain ⟨digits, fraction, hdigits, ht₁₀⟩ := fraction?_sound hfraction
    obtain ⟨offset, zone, hzone, ht₁₁⟩ := offset?_sound hoffset
    have ht₁₂ : t₁₂ = [] := (atEnd?_eq_some_iff.mp hend).1
    have hseparator : separator ∈ ['T', 't', ' '] := by
      simpa [isSeparator, or_assoc] using hguard
    have hspells := Zoned.Spells.parts hyear hmonth hday hseparator hhour hminute hsecond hdigits
      hzone
    rw [ht, ht₁, ht₂, ht₃, ht₄, ht₅, ht₆, ht₇, ht₈, ht₉, ht₁₀, ht₁₁, ht₁₂]
    simp only [List.append_assoc, List.cons_append, List.append_nil] at hspells ⊢
    exact ⟨_, hspells⟩

/-- **The layout with an offset reads the spellings of moments and offsets** and
    nothing else, each as its fields. -/
theorem zonedParts?_eq_some_iff_exists {parts : Moment × Int} :
    zonedParts? t = some parts ↔
      ∃ z : Zoned, z.Spells t ∧ z.Valid ∧ parts = (z.moment, z.offset.minutes) := by
  constructor
  · intro h
    obtain ⟨z, hz⟩ := zonedParts?_sound h
    exact ⟨z, hz, (zonedParts?_eq_some_iff hz).mp h⟩
  · rintro ⟨z, hz, h⟩
    exact (zonedParts?_eq_some_iff hz).mpr h

/-! ## The layouts without an offset -/

theorem date?_eq_some_iff {date : Date} :
    date? t = some (date, rest) ↔
      ∃ year t₁ month t₂ day,
        year? t = some (year, '-' :: t₁) ∧ field? t₁ = some (month, '-' :: t₂) ∧
        field? t₂ = some (day, rest) ∧ date = ⟨year, month, day⟩ := by
  unfold date?
  simp only [Option.bind_eq_bind, Option.bind_eq_some_iff, Prod.exists, char?_eq_some_iff,
    Option.pure_def, Option.some.injEq, Prod.mk.injEq]
  constructor
  · rintro ⟨year, _, hyear, t₁, rfl, month, _, hmonth, t₂, rfl, day, _, hday, rfl, rfl⟩
    exact ⟨year, t₁, month, t₂, day, hyear, hmonth, hday, rfl⟩
  · rintro ⟨year, t₁, month, t₂, day, hyear, hmonth, hday, rfl⟩
    exact ⟨year, _, hyear, t₁, rfl, month, _, hmonth, t₂, rfl, day, rest, hday, rfl, rfl⟩

theorem clock?_eq_some_iff {date : Date} :
    clock? date t = some (m, rest) ↔
      ∃ hour t₁ minute t₂ second t₃ millis,
        field? t = some (hour, ':' :: t₁) ∧ field? t₁ = some (minute, ':' :: t₂) ∧
        field? t₂ = some (second, t₃) ∧ fraction? t₃ = some (millis, rest) ∧
        m = { date, hour, minute, second, millis } := by
  unfold clock?
  simp only [Option.bind_eq_bind, Option.bind_eq_some_iff, Prod.exists, char?_eq_some_iff,
    Option.pure_def, Option.some.injEq, Prod.mk.injEq]
  constructor
  · rintro ⟨hour, _, hhour, t₁, rfl, minute, _, hminute, t₂, rfl, second, t₃, hsecond, millis, _,
      hmillis, rfl, rfl⟩
    exact ⟨hour, t₁, minute, t₂, second, t₃, millis, hhour, hminute, hsecond, hmillis, rfl⟩
  · rintro ⟨hour, t₁, minute, t₂, second, t₃, millis, hhour, hminute, hsecond, hmillis, rfl⟩
    exact ⟨hour, _, hhour, t₁, rfl, minute, _, hminute, t₂, rfl, second, t₃, hsecond, millis, rest,
      hmillis, rfl, rfl⟩

theorem fields?_seconds_iff :
    fields? .seconds t = some (m, rest) ↔
      ∃ date t₁, date? t = some (date, 'T' :: t₁) ∧ clock? date t₁ = some (m, rest) := by
  unfold fields?
  simp only [Option.bind_eq_bind, Option.bind_eq_some_iff, Prod.exists, char?_eq_some_iff]
  constructor
  · rintro ⟨date, _, hdate, t₁, rfl, hclock⟩
    exact ⟨date, t₁, hdate, hclock⟩
  · rintro ⟨date, t₁, hdate, hclock⟩
    exact ⟨date, _, hdate, t₁, rfl, hclock⟩

theorem fields?_unmarked_iff :
    fields? .unmarked t = some (m, rest) ↔
      ∃ date t₁, date? t = some (date, t₁) ∧ clock? date t₁ = some (m, rest) := by
  unfold fields?
  simp only [Option.bind_eq_bind, Option.bind_eq_some_iff, Prod.exists]

theorem fields?_minutes_iff :
    fields? .minutes t = some (m, rest) ↔
      ∃ date t₁ hour t₂ minute, date? t = some (date, 'T' :: t₁) ∧
        field? t₁ = some (hour, ':' :: t₂) ∧ field? t₂ = some (minute, rest) ∧
        m = { date, hour, minute } := by
  unfold fields?
  simp only [Option.bind_eq_bind, Option.bind_eq_some_iff, Prod.exists, char?_eq_some_iff,
    Option.pure_def, Option.some.injEq, Prod.mk.injEq]
  constructor
  · rintro ⟨date, _, hdate, t₁, rfl, hour, _, hhour, t₂, rfl, minute, _, hminute, rfl, rfl⟩
    exact ⟨date, t₁, hour, t₂, minute, hdate, hhour, hminute, rfl⟩
  · rintro ⟨date, t₁, hour, t₂, minute, hdate, hhour, hminute, rfl⟩
    exact ⟨date, _, hdate, t₁, rfl, hour, _, hhour, t₂, rfl, minute, rest, hminute, rfl, rfl⟩

theorem fields?_nothing_iff :
    fields? .nothing t = some (m, rest) ↔ ∃ date, date? t = some (date, rest) ∧ m = { date } := by
  unfold fields?
  simp only [Option.bind_eq_bind, Option.bind_eq_some_iff, Prod.exists, Option.pure_def,
    Option.some.injEq, Prod.mk.injEq]
  constructor
  · rintro ⟨date, _, hdate, rfl, rfl⟩
    exact ⟨date, hdate, rfl⟩
  · rintro ⟨date, hdate, rfl⟩
    exact ⟨date, rest, hdate, rfl, rfl⟩

end TypedTriples.Layout
