import Mathlib
import TypedTriples.Proofs.Calendar.Accepted

/-!
# Layouts exclude each other

The layouts without an offset start with the same date, and how a text goes on
behind its date tells which of them may read it: not at all, with the letter `T`
and an hour and a minute, with the letter and more than that, or without the
letter. A text with an offset is read by none of them. So the layouts may be
tried in any order.

Main definitions:
* `Layout.Excludes`: two layouts without a common text.
* `Layout.continuation?`: how a text goes on behind its date.
* `Timestamp.momentBy`: the moment of a timestamp, by layouts in a given order.

Main results:
* `Layout.continuation?_eq`: how the texts of a layout without an offset go on.
* `Layout.pairwise_excludes`: the five layouts exclude each other.
* `Timestamp.layouts_exclusive`: the order in which they are tried does not matter.
-/

namespace TypedTriples

namespace Layout

variable {t : Text} {m : Moment}

/-! ## Specification -/

/-- No text is read by both layouts. -/
def Excludes (a b : Text → Option Moment) : Prop := ∀ t, a t = none ∨ b t = none

theorem Excludes.symm {a b : Text → Option Moment} (h : Excludes a b) : Excludes b a :=
  fun t => (h t).symm

/-! ## Behind the date -/

/-- What follows an hour and a minute. -/
def behindMinute? (t : Text) : Option Text := do
  let (_, t) ← field? t
  let t ← char? ':' t
  let (_, t) ← field? t
  return t

/-- How a text goes on of which this is what follows the date. -/
def continuation : Text → Continuation
  | [] => .nothing
  | 'T' :: t => if behindMinute? t = some [] then .minutes else .seconds
  | _ => .unmarked

/-- How a text goes on behind its date, if it starts with one. -/
def continuation? (t : Text) : Option Continuation :=
  (date? t).map fun read => continuation read.2

theorem continuation?_of_date? {date : Date} {rest : Text} (h : date? t = some (date, rest)) :
    continuation? t = some (continuation rest) := by
  unfold continuation?
  rw [h]
  rfl

theorem continuation?_of_fields? {mark : Continuation} (h : fields? mark t = some (m, [])) :
    continuation? t = some mark := by
  cases mark with
  | nothing =>
    obtain ⟨date, hdate, -⟩ := fields?_nothing_iff.mp h
    rw [continuation?_of_date? hdate]
    rfl
  | minutes =>
    obtain ⟨date, time, _, _, _, hdate, hhour, hminute, -⟩ := fields?_minutes_iff.mp h
    have hbehind : behindMinute? time = some [] := by
      simp [behindMinute?, hhour, hminute]
    rw [continuation?_of_date? hdate]
    simp [continuation, hbehind]
  | seconds =>
    obtain ⟨date, time, hdate, hclock⟩ := fields?_seconds_iff.mp h
    obtain ⟨_, _, _, after, _, _, _, hhour, hminute, -⟩ := clock?_eq_some_iff.mp hclock
    have hbehind : behindMinute? time = some (':' :: after) := by
      simp [behindMinute?, hhour, hminute]
    rw [continuation?_of_date? hdate]
    simp [continuation, hbehind]
  | unmarked =>
    obtain ⟨date, rest, hdate, hclock⟩ := fields?_unmarked_iff.mp h
    rw [continuation?_of_date? hdate]
    cases rest with
    | nil => cases hclock
    | cons c rest =>
      -- The letter is no white space and no digit, so no time of day starts with it.
      have hc : c ≠ 'T' := by
        rintro rfl
        rw [clock?_cons_of_not date rfl rfl] at hclock
        cases hclock
      simp [continuation, hc]

/-- **How a text goes on behind its date tells which layout may read it.** -/
theorem continuation?_eq {layout : Text → Option Moment} {mark : Continuation}
    (hlayout : (layout, mark) ∈ unzoned) (h : layout t = some m) : continuation? t = some mark := by
  obtain ⟨hfields, -⟩ := (unzoned_eq_some_iff_fields? hlayout).mp h
  exact continuation?_of_fields? hfields

/-! ## The five layouts -/

theorem excludes_of_forall {a b : Text → Option Moment}
    (h : ∀ t m n, a t = some m → b t ≠ some n) : Excludes a b := by
  intro t
  cases ha : a t with
  | none => exact .inl rfl
  | some m => exact .inr (Option.eq_none_iff_forall_ne_some.mpr fun n => h t m n ha)

theorem pairwise_excludes_unzoned : (unzoned.map Prod.fst).Pairwise Excludes := by
  have hdistinct : unzoned.Pairwise fun a b => a.2 ≠ b.2 := by simp [unzoned]
  rw [List.pairwise_map]
  apply hdistinct.imp_of_mem
  intro a b ha hb hne
  apply excludes_of_forall
  intro t m n hm hn
  have hmarks : some a.2 = some b.2 := (continuation?_eq ha hm).symm.trans (continuation?_eq hb hn)
  exact hne (Option.some.inj hmarks)

/-- **Any two of the layouts exclude each other.** -/
theorem pairwise_excludes : Timestamp.layouts.Pairwise Excludes := by
  apply List.Pairwise.cons _ pairwise_excludes_unzoned
  intro layout hlayout
  apply excludes_of_forall
  intro t m n hzoned hread
  obtain ⟨parts, hparts, -⟩ := Option.map_eq_some_iff.mp hzoned
  obtain ⟨z, hspells⟩ := zonedParts?_sound hparts
  have hnone := unzoned_eq_none_of_fields? (fields?_ne_nil_of_spells hspells) layout hlayout
  rw [hnone] at hread
  cases hread

/-- Of layouts that exclude each other, the first that reads a text is the only one. -/
theorem findSome?_eq_some_iff {order : List (Text → Option Moment)} (h : order.Pairwise Excludes) :
    (order.findSome? fun layout => layout t) = some m ↔ ∃ layout ∈ order, layout t = some m := by
  constructor
  · exact List.exists_of_findSome?_eq_some
  · rintro ⟨layout, hlayout, hread⟩
    induction h with
    | nil => cases hlayout
    | @cons first others hexcludes _ ih =>
      rw [List.findSome?_cons]
      rcases List.mem_cons.mp hlayout with rfl | hothers
      · rw [hread]
      · have hfirst : first t = none := by
          rcases hexcludes layout hothers t with hnone | hnone
          · exact hnone
          · rw [hnone] at hread
            cases hread
        rw [hfirst]
        exact ih hothers

end Layout

namespace Timestamp

/-- The moment that a timestamp stands for, when the layouts are tried in the given
    order. -/
def momentBy (order : List (Text → Option Moment)) (value : Text) :
    Except InvalidTimestamp Moment :=
  match order.findSome? fun layout => layout value.trim with
  | some m => .ok m
  | none => .error ⟨value.trim⟩

theorem momentBy_layouts (value : Text) : momentBy layouts value = moment value := rfl

/-- **At most one layout reads a text.** So whatever the order in which they are
    tried, every text stands for the same moment or for none. -/
theorem layouts_exclusive :
    layouts.Pairwise Layout.Excludes ∧
      ∀ order, order.Perm layouts → ∀ value, momentBy order value = moment value := by
  refine ⟨Layout.pairwise_excludes, ?_⟩
  intro order hperm value
  have hpairwise : order.Pairwise Layout.Excludes :=
    hperm.symm.pairwise Layout.pairwise_excludes fun h => h.symm
  have hread : (order.findSome? fun layout => layout value.trim) =
      layouts.findSome? fun layout => layout value.trim := by
    apply Option.ext
    intro m
    rw [Layout.findSome?_eq_some_iff hpairwise,
      Layout.findSome?_eq_some_iff Layout.pairwise_excludes]
    simp only [hperm.mem_iff]
  rw [← momentBy_layouts]
  unfold momentBy
  rw [hread]

/-- The blank between date and time has vanished, and the bare date is tried first. -/
theorem layouts_exclusive_backwards :
    layouts.reverse.Perm layouts ∧
      momentBy layouts.reverse " 2018-11-1810:20:30".toList =
        .ok ⟨⟨2018, 11, 18⟩, 10, 20, 30, 0⟩ := by
  have hmoment : moment " 2018-11-1810:20:30".toList = .ok ⟨⟨2018, 11, 18⟩, 10, 20, 30, 0⟩ := by
    rfl
  have hperm : layouts.reverse.Perm layouts := List.reverse_perm layouts
  exact ⟨hperm, (layouts_exclusive.2 _ hperm _).trans hmoment⟩

end Timestamp

end TypedTriples
