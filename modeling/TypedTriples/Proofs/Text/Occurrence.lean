import Mathlib
import TypedTriples.Text.Basic

/-!
# First occurrences

A part of a text is looked for from the start of the text on, so what is found is
the occurrence with the least before it. The empty part is found at the start of
every text.

Main definitions:
* `Text.IsFirst`: the two sides of the first occurrence of a part.

Main results:
* `Text.breakOn?_eq_some_iff`, `Text.breakOn?_eq_none_iff`: what is found, and when
  nothing is.
* `Text.replaceFirst_append`: a part that a text starts with is the one that is
  replaced.
* `Text.replaceFirst_of_not_infix`, `Text.replaceFirst_self`: replacing nothing, or
  a part by itself.
-/

namespace TypedTriples.Text

variable {part t before after : Text}

/-! ## Specification -/

/-- The text is the part between the two sides, and no other occurrence of the part
    has less before it. -/
structure IsFirst (part t before after : Text) : Prop where
  eq : t = before ++ part ++ after
  length_le : ∀ left right, t = left ++ part ++ right → before.length ≤ left.length

theorem IsFirst.unique {before' after' : Text} (h : IsFirst part t before after)
    (h' : IsFirst part t before' after') : before = before' ∧ after = after' := by
  have hlength : before.length = before'.length :=
    Nat.le_antisymm (h.length_le before' after' h'.eq) (h'.length_le before after h.eq)
  have heq : before ++ (part ++ after) = before' ++ (part ++ after') := by
    rw [← List.append_assoc, ← List.append_assoc, ← h.eq, ← h'.eq]
  obtain ⟨hbefore, hrest⟩ := List.append_inj heq hlength
  exact ⟨hbefore, List.append_cancel_left hrest⟩

theorem isFirst_append (part after : Text) : IsFirst part (part ++ after) [] after :=
  ⟨rfl, fun left _ _ => Nat.zero_le left.length⟩

/-- A character in front of a text that does not start with the part goes to the
    left side. -/
theorem IsFirst.cons {c : Char} (h : IsFirst part t before after) (hstart : ¬ part <+: c :: t) :
    IsFirst part (c :: t) (c :: before) after := by
  refine ⟨congrArg (List.cons c) h.eq, ?_⟩
  intro left right heq
  cases left with
  | nil => exact absurd ⟨right, heq.symm⟩ hstart
  | cons d left =>
    have htail : t = left ++ part ++ right := (List.cons.inj heq).2
    exact Nat.succ_le_succ (h.length_le left right htail)

/-! ## What is found -/

theorem stripPrefix?_eq_none_iff : stripPrefix? part t = none ↔ ¬ part <+: t := by
  simp [stripPrefix?]

/-- Nothing is found exactly when the part stands nowhere in the text. -/
theorem breakOn?_eq_none_iff : breakOn? part t = none ↔ ¬ part <:+: t := by
  induction t with
  | nil => simp [breakOn?, List.infix_nil]
  | cons c t ih =>
    rw [List.infix_cons_iff, not_or, ← ih, ← stripPrefix?_eq_none_iff, breakOn?]
    cases stripPrefix? part (c :: t) with
    | some after => simp
    | none => simp

theorem isFirst_of_breakOn? (h : breakOn? part t = some (before, after)) :
    IsFirst part t before after := by
  induction t generalizing before with
  | nil =>
    rw [breakOn?] at h
    split at h
    · rename_i hempty
      obtain ⟨rfl, rfl⟩ := Prod.mk.inj (Option.some.inj h)
      rw [List.isEmpty_iff.mp hempty]
      exact isFirst_append [] []
    · cases h
  | cons c t ih =>
    rw [breakOn?] at h
    split at h
    · rename_i hstrip
      obtain ⟨rfl, rfl⟩ := Prod.mk.inj (Option.some.inj h)
      rw [stripPrefix?_eq_some_iff.mp hstrip]
      exact isFirst_append part _
    · rename_i hstrip
      obtain ⟨cut, hcut, heq⟩ := Option.map_eq_some_iff.mp h
      obtain ⟨rfl, rfl⟩ := Prod.mk.inj heq
      exact (ih hcut).cons (stripPrefix?_eq_none_iff.mp hstrip)

/-- **What is found is the first occurrence.** -/
theorem breakOn?_eq_some_iff :
    breakOn? part t = some (before, after) ↔ IsFirst part t before after := by
  constructor
  · exact isFirst_of_breakOn?
  · intro h
    cases hcut : breakOn? part t with
    | none => exact absurd ⟨before, after, h.eq.symm⟩ (breakOn?_eq_none_iff.mp hcut)
    | some cut =>
      obtain ⟨hbefore, hafter⟩ := h.unique (isFirst_of_breakOn? hcut)
      rw [hbefore, hafter]

/-! ## Replacement -/

theorem replaceFirst_of_isFirst (h : IsFirst part t before after) (replacement : Text) :
    replaceFirst t part replacement = before ++ replacement ++ after := by
  unfold replaceFirst
  rw [breakOn?_eq_some_iff.mpr h]

/-- A part that a text starts with is the one that is replaced. -/
theorem replaceFirst_append (part after replacement : Text) :
    replaceFirst (part ++ after) part replacement = replacement ++ after :=
  replaceFirst_of_isFirst (isFirst_append part after) replacement

theorem replaceFirst_of_not_infix (h : ¬ part <:+: t) (replacement : Text) :
    replaceFirst t part replacement = t := by
  unfold replaceFirst
  rw [breakOn?_eq_none_iff.mpr h]

theorem replaceFirst_self (t part : Text) : replaceFirst t part part = t := by
  cases hcut : breakOn? part t with
  | none => exact replaceFirst_of_not_infix (breakOn?_eq_none_iff.mp hcut) part
  | some cut =>
    have hfirst := breakOn?_eq_some_iff.mp hcut
    rw [replaceFirst_of_isFirst hfirst, ← hfirst.eq]

end TypedTriples.Text
