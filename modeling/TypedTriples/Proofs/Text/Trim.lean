import Mathlib
import TypedTriples.Proofs.Ruleset.Shapes

/-!
# White space around a text

Trimming takes away the white space that a text starts or ends with, all of it
and nothing else.

Main results:
* `Text.trimStart_append`, `Text.trim_append`: a text is what is left of it
  between white space, if it neither starts nor ends with any.
* `Text.takeWhile_append_trimStart`, `Text.trimEnd_append_takeWhile`: what is
  taken away is white space.
-/

namespace TypedTriples.Text

open Directive (Stops)

/-! ## What is left -/

theorem trimStart_append {before t : Text} (h : before.isBlank = true)
    (hfirst : ∀ c ∈ t.head?, isWhite c = false) : trimStart (before ++ t) = t :=
  Directive.dropWhile_append_of_stops (List.all_eq_true.mp h) hfirst

theorem trimEnd_append {t after : Text} (h : after.isBlank = true)
    (hlast : ∀ c ∈ t.getLast?, isWhite c = false) : trimEnd (t ++ after) = t := by
  have hblank : ∀ c ∈ after.reverse, isWhite c = true :=
    fun c hc => List.all_eq_true.mp h c (List.mem_reverse.mp hc)
  have hstops : Stops isWhite t.reverse := by
    intro c hc
    rw [List.head?_reverse] at hc
    exact hlast c hc
  unfold trimEnd
  rw [List.reverse_append, Directive.dropWhile_append_of_stops hblank hstops, List.reverse_reverse]

/-- A text is what is left of it between white space, if it neither starts nor ends
    with any. -/
theorem trim_append {before t after : Text} (hbefore : before.isBlank = true)
    (hafter : after.isBlank = true) (hne : t ≠ []) (hfirst : ∀ c ∈ t.head?, isWhite c = false)
    (hlast : ∀ c ∈ t.getLast?, isWhite c = false) : trim (before ++ t ++ after) = t := by
  have hfirst' : ∀ c ∈ (t ++ after).head?, isWhite c = false := by
    intro c hc
    rw [List.head?_append_of_ne_nil _ hne] at hc
    exact hfirst c hc
  unfold trim
  rw [List.append_assoc, trimStart_append hbefore hfirst', trimEnd_append hafter hlast]

/-! ## What is taken away -/

theorem isBlank_takeWhile (t : Text) : isBlank (t.takeWhile isWhite) = true :=
  List.all_eq_true.mpr fun _ hc => List.mem_takeWhile_imp hc

theorem takeWhile_append_trimStart (t : Text) : t.takeWhile isWhite ++ trimStart t = t :=
  List.takeWhile_append_dropWhile

theorem trimEnd_append_takeWhile (t : Text) :
    trimEnd t ++ (t.reverse.takeWhile isWhite).reverse = t := by
  unfold trimEnd
  rw [← List.reverse_append, List.takeWhile_append_dropWhile, List.reverse_reverse]

theorem stops_trim (value : Text) : Stops isWhite value.trim := by
  have hstart : Stops isWhite value.trimStart := Directive.stops_dropWhile isWhite value
  rw [← trimEnd_append_takeWhile value.trimStart] at hstart
  exact Directive.stops_of_append hstart

end TypedTriples.Text
