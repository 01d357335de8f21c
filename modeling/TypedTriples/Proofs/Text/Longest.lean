import Mathlib
import TypedTriples.Text.Basic

/-!
# The longest start of a text

Of the starts of a text that have a form, a scanner is to find the longest. It
does so if what it finds has the form, and if it finds no less than a text of the
form wherever the text starts with one.

Main definitions:
* `Text.IsLongest`: the longest start that has a form.
* `Text.FindsLongest`: what is found is the longest start, or there is none.

Main results:
* `findsLongest_of_extends`: what it takes to find the longest start.
-/

namespace TypedTriples.Text

/-- A start of a text that has a form, where no longer one has it. -/
structure IsLongest (form : Text → Prop) (t part : Text) : Prop where
  has_form : form part
  leading : part <+: t
  longest : ∀ other, form other → other <+: t → other.length ≤ part.length

/-- What is found in a text is the longest start that has a form, and nothing is
    found only if no start has it. -/
structure FindsLongest (form : Text → Prop) (t : Text) (found : Option Text) : Prop where
  eq_some_iff : ∀ part, found = some part ↔ IsLongest form t part
  eq_none_iff : found = none ↔ ∀ part, part <+: t → ¬ form part

/-- A scanner finds the longest start if it neither goes too far nor stops short. -/
theorem findsLongest_of_extends {form : Text → Prop} {scan? : Text → Option Text}
    (hsound : ∀ t part, scan? t = some part → form part ∧ part <+: t)
    (hextends : ∀ part rest, form part → ∃ more, scan? (part ++ rest) = some (part ++ more))
    (t : Text) : FindsLongest form t (scan? t) := by
  have hreaches : ∀ part, form part → part <+: t → ∃ more, scan? t = some (part ++ more) := by
    rintro part hform ⟨rest, rfl⟩
    exact hextends part rest hform
  refine ⟨fun part => ⟨fun h => ?_, fun h => ?_⟩, fun h part hleading hform => ?_, fun h => ?_⟩
  · obtain ⟨hform, hleading⟩ := hsound t part h
    refine ⟨hform, hleading, fun other hother hstart => ?_⟩
    obtain ⟨more, hmore⟩ := hreaches other hother hstart
    obtain rfl := Option.some.inj (h.symm.trans hmore)
    rw [List.length_append]
    exact Nat.le_add_right _ _
  · obtain ⟨more, hmore⟩ := hreaches part h.has_form h.leading
    obtain ⟨hform, hstart⟩ := hsound t _ hmore
    have hle := h.longest _ hform hstart
    rw [List.length_append] at hle
    rw [hmore, List.length_eq_zero_iff.mp (show more.length = 0 by omega), List.append_nil]
  · obtain ⟨more, hmore⟩ := hreaches part hform hleading
    rw [h] at hmore
    cases hmore
  · refine Option.eq_none_iff_forall_ne_some.mpr fun part hpart => ?_
    obtain ⟨hform, hleading⟩ := hsound t part hpart
    exact h part hleading hform

end TypedTriples.Text
