import Mathlib
import TypedTriples.Proofs.Ruleset.Concatenation

/-!
# The lines of a text and their places

A line of a text is a longest stretch without a line end. Its place is told by what
stands before it, and its number is one more than the number of line ends there, so
that empty lines count and a carriage return with a line feed behind it counts twice.

Main definitions:
* `Ruleset.IsLineAt`: a line and what stands before it.
* `Ruleset.withLineEnd`: a text with another line end in the place of the line feed.

Main results:
* `Ruleset.exists_places`: the numbered lines by their places.
* `Ruleset.lines_withLineEnd_return`, `Ruleset.lines_withLineEnd_returnFeed`: lines
  with other ends.
-/

namespace TypedTriples.Ruleset

open Directive (Stops stops_cons takeWhile_append_of_stops)

variable {content before first line rest : Text} {c : Char}

/-! ## Specification -/

/-- A line of a text, and what stands before it. -/
structure IsLineAt (content before line : Text) : Prop where
  /-- The line is the first one, or a line end stands before it. -/
  starts : ∀ c ∈ before.getLast?, isLineEnd c = true
  whole : ∀ c ∈ line, isLineEnd c = false
  /-- The line is the last one, or a line end stands behind it. -/
  ends : ∃ after, content = before ++ line ++ after ∧ ∀ c ∈ after.head?, isLineEnd c = true

/-- The text with its line feeds replaced by another line end. -/
def withLineEnd (lineEnd content : Text) : Text :=
  content.flatMap fun c => if c = '\n' then lineEnd else [c]

/-! ## Lines from the start of a text -/

/-- A text is a line, or a line with an end and a shorter text. -/
theorem line_induction {motive : Text → Prop}
    (hlast : ∀ line, (∀ c ∈ line, isLineEnd c = false) → motive line)
    (hnext : ∀ line c rest, (∀ d ∈ line, isLineEnd d = false) → isLineEnd c = true →
      motive rest → motive (line ++ c :: rest))
    (content : Text) : motive content := by
  induction hlength : content.length using Nat.strong_induction_on generalizing content with
  | _ length ih =>
    have hcut : content.takeWhile (fun c => !isLineEnd c) ++
        content.dropWhile (fun c => !isLineEnd c) = content := List.takeWhile_append_dropWhile
    have hline : ∀ c ∈ content.takeWhile (fun c => !isLineEnd c), isLineEnd c = false := by
      intro c hc
      simpa using List.mem_takeWhile_imp hc
    have hstops : Stops (fun c => !isLineEnd c) (content.dropWhile fun c => !isLineEnd c) :=
      Directive.stops_dropWhile _ _
    rw [← hcut] at hlength ⊢
    generalize content.takeWhile (fun c => !isLineEnd c) = line at hline hlength ⊢
    generalize content.dropWhile (fun c => !isLineEnd c) = tail at hstops hlength ⊢
    cases tail with
    | nil =>
      rw [List.append_nil]
      exact hlast line hline
    | cons c rest =>
      apply hnext line c rest hline
      · simpa using stops_cons.mp hstops
      · apply ih rest.length _ rest rfl
        rw [← hlength, List.length_append, List.length_cons]
        omega

theorem lines_of_forall (h : ∀ c ∈ line, isLineEnd c = false) : lines line = [line] :=
  List.splitOnP_eq_singleton h

theorem lines_append_cons (hline : ∀ c ∈ line, isLineEnd c = false) (hc : isLineEnd c = true)
    (rest : Text) : lines (line ++ c :: rest) = line :: lines rest := by
  have hcut : lines (line ++ c :: rest) = lines line ++ lines rest :=
    List.splitOnP_append_cons line rest hc
  rw [hcut, lines_of_forall hline, List.singleton_append]

theorem numberedLines_of_forall (h : ∀ c ∈ line, isLineEnd c = false) :
    numberedLines line = [(1, line)] := by
  rw [numberedLines, lines_of_forall h]
  rfl

theorem numberedLines_append_cons (hline : ∀ c ∈ line, isLineEnd c = false)
    (hc : isLineEnd c = true) (rest : Text) :
    numberedLines (line ++ c :: rest) =
      (1, line) :: (numberedLines rest).map fun entry => (entry.1 + 1, entry.2) := by
  rw [numberedLines, lines_append_cons hline hc, List.zipIdx_cons, List.map_cons,
    List.zipIdx_succ, List.map_map, numberedLines, List.map_map]
  rfl

/-! ## Places -/

/-- What stands in front of the first line end is told from what follows. -/
theorem eq_of_line_append_eq {after tail : Text} (hline : ∀ c ∈ line, isLineEnd c = false)
    (hfirst : ∀ c ∈ first, isLineEnd c = false) (hafter : ∀ c ∈ after.head?, isLineEnd c = true)
    (htail : ∀ c ∈ tail.head?, isLineEnd c = true) (h : line ++ after = first ++ tail) :
    line = first := by
  have hline' : ∀ c ∈ line, (!isLineEnd c) = true := fun c hc => by simp [hline c hc]
  have hfirst' : ∀ c ∈ first, (!isLineEnd c) = true := fun c hc => by simp [hfirst c hc]
  have hafter' : Stops (fun c => !isLineEnd c) after := fun c hc => by simp [hafter c hc]
  have htail' : Stops (fun c => !isLineEnd c) tail := fun c hc => by simp [htail c hc]
  rw [← takeWhile_append_of_stops hline' hafter', h, takeWhile_append_of_stops hfirst' htail']

/-- A line stands where it stood when another line with its end is put in front. -/
theorem IsLineAt.append {start : Text} (h : IsLineAt rest start line) (first : Text)
    (hc : isLineEnd c = true) : IsLineAt (first ++ c :: rest) (first ++ c :: start) line := by
  obtain ⟨after, rfl, hafter⟩ := h.ends
  refine ⟨fun d hd => ?_, h.whole, after, by simp, hafter⟩
  rw [List.getLast?_append_of_ne_nil _ (List.cons_ne_nil c start), List.getLast?_cons] at hd
  cases hstart : start.getLast? with
  | none =>
    rw [hstart] at hd
    obtain rfl : c = d := Option.some.inj hd
    exact hc
  | some e =>
    rw [hstart] at hd
    obtain rfl : e = d := Option.some.inj hd
    exact h.starts e hstart

/-- A line with something before it stands behind the end of the first line. -/
theorem IsLineAt.exists_of_append {tail : Text} (hfirst : ∀ c ∈ first, isLineEnd c = false)
    (h : IsLineAt (first ++ tail) before line) (hbefore : before ≠ []) :
    ∃ c start rest, tail = c :: rest ∧ before = first ++ c :: start ∧
      IsLineAt rest start line := by
  obtain ⟨after, hcontent, hafter⟩ := h.ends
  obtain ⟨front, last, rfl⟩ : ∃ front last, before = front ++ [last] :=
    ⟨_, _, (List.dropLast_append_getLast hbefore).symm⟩
  have hlast : last ∉ first := by
    intro hmem
    have hend := h.starts last (by simp)
    rw [hfirst last hmem] at hend
    cases hend
  rw [List.append_assoc] at hcontent
  rcases List.append_eq_append_iff.mp hcontent with ⟨behind, hfront, htail⟩ | ⟨part, hpart, -⟩
  · cases behind with
    | nil =>
      rw [List.append_nil] at hfront
      exact absurd (by simp [← hfront]) hlast
    | cons c start =>
      rw [List.cons_append, ← List.append_assoc] at htail
      refine ⟨c, start, _, htail, hfront, fun d hd => h.starts d ?_, h.whole, after, rfl, hafter⟩
      rw [hfront, List.getLast?_append_of_ne_nil _ (by simp), List.getLast?_cons, hd]
      rfl
  · exact absurd (by simp [hpart]) hlast

/-- The first line stands behind nothing; any other stands behind the first line and its
    end. -/
theorem isLineAt_append {tail : Text} (hfirst : ∀ c ∈ first, isLineEnd c = false)
    (htail : ∀ c ∈ tail.head?, isLineEnd c = true) :
    IsLineAt (first ++ tail) before line ↔
      (before = [] ∧ line = first) ∨
        ∃ c start rest, tail = c :: rest ∧ before = first ++ c :: start ∧
          IsLineAt rest start line := by
  constructor
  · intro h
    by_cases hbefore : before = []
    · obtain ⟨after, hcontent, hafter⟩ := h.ends
      rw [hbefore, List.nil_append] at hcontent
      exact .inl ⟨hbefore, eq_of_line_append_eq h.whole hfirst hafter htail hcontent.symm⟩
    · exact .inr (h.exists_of_append hfirst hbefore)
  · rintro (⟨rfl, rfl⟩ | ⟨c, start, rest, rfl, rfl, h⟩)
    · exact ⟨by simp, hfirst, tail, rfl, htail⟩
    · exact h.append first (htail c rfl)

/-- **The numbered lines by their places.** The lines come in the order of what stands
    before them, each place once, and a line has the number of the line ends before it,
    counted from one. -/
theorem exists_places (content : Text) :
    ∃ places : List (Text × Text),
      (∀ before line, (before, line) ∈ places ↔ IsLineAt content before line) ∧
      places.Pairwise (fun p q => p.1.length < q.1.length) ∧
      numberedLines content = places.map fun p => (1 + p.1.countP isLineEnd, p.2) := by
  induction content using line_induction with
  | hlast first hfirst =>
    refine ⟨[([], first)], ?_, List.pairwise_singleton _ _, numberedLines_of_forall hfirst⟩
    intro before line
    have hplace : IsLineAt (first ++ []) before line ↔ _ := isLineAt_append hfirst (by simp)
    rw [List.append_nil] at hplace
    rw [hplace]
    simp
  | hnext first c rest hfirst hc ih =>
    obtain ⟨places, hplaces, hsorted, hnumbers⟩ := ih
    refine ⟨([], first) :: places.map fun p => (first ++ c :: p.1, p.2), ?_, ?_, ?_⟩
    · intro before line
      rw [isLineAt_append hfirst (by simpa using hc), List.mem_cons, List.mem_map, Prod.mk.injEq]
      refine or_congr Iff.rfl ?_
      constructor
      · rintro ⟨⟨start, line'⟩, hmem, heq⟩
        obtain ⟨rfl, rfl⟩ := Prod.mk.inj heq
        exact ⟨c, start, rest, rfl, rfl, (hplaces start line').mp hmem⟩
      · rintro ⟨c', start, rest', htail, rfl, hline⟩
        obtain ⟨rfl, rfl⟩ := List.cons.inj htail
        exact ⟨(start, line), (hplaces start line).mpr hline, rfl⟩
    · rw [List.pairwise_cons, List.pairwise_map]
      refine ⟨?_, hsorted.imp fun hlt => ?_⟩
      · intro p hp
        obtain ⟨q, -, rfl⟩ := List.mem_map.mp hp
        simp
      · rw [List.length_append, List.length_append, List.length_cons, List.length_cons]
        omega
    · have hnone : first.countP isLineEnd = 0 := by
        rw [List.countP_eq_zero]
        intro d hd
        simp [hfirst d hd]
      rw [numberedLines_append_cons hfirst hc, hnumbers, List.map_map, List.map_cons, List.map_map]
      congr 1
      apply List.map_congr_left
      intro p _
      simp only [Function.comp_apply, List.countP_append, hnone, List.countP_cons_of_pos hc]
      congr 1
      omega

/-! ## Other line ends -/

theorem withLineEnd_cons_feed (lineEnd rest : Text) :
    withLineEnd lineEnd ('\n' :: rest) = lineEnd ++ withLineEnd lineEnd rest := by
  simp [withLineEnd]

theorem withLineEnd_cons (lineEnd : Text) (hc : c ≠ '\n') (rest : Text) :
    withLineEnd lineEnd (c :: rest) = c :: withLineEnd lineEnd rest := by
  simp [withLineEnd, hc]

theorem lines_cons_of_isLineEnd (hc : isLineEnd c = true) (rest : Text) :
    lines (c :: rest) = [] :: lines rest :=
  lines_append_cons (List.forall_mem_nil _) hc rest

theorem lines_cons_of_not_isLineEnd (hc : isLineEnd c = false) (rest : Text) :
    lines (c :: rest) = (lines rest).modifyHead (c :: ·) := by
  rw [lines, List.splitOnP_cons_eq_if_modifyHead, if_neg (by simp [hc])]
  rfl

theorem isLineEnd_of_ne (hfeed : c ≠ '\n') (hreturn : c ≠ '\r') : isLineEnd c = false := by
  simp [isLineEnd, hfeed, hreturn]

theorem lines_withLineEnd_return (h : '\r' ∉ content) :
    lines (withLineEnd ['\r'] content) = lines content := by
  induction content with
  | nil => rfl
  | cons c rest ih =>
    rw [List.mem_cons, not_or] at h
    by_cases hc : c = '\n'
    · subst hc
      rw [withLineEnd_cons_feed, List.singleton_append, lines_cons_of_isLineEnd rfl,
        lines_cons_of_isLineEnd rfl, ih h.2]
    · have hnot := isLineEnd_of_ne hc (Ne.symm h.1)
      rw [withLineEnd_cons _ hc, lines_cons_of_not_isLineEnd hnot,
        lines_cons_of_not_isLineEnd hnot, ih h.2]

/-- Carriage returns with line feeds end the same lines, and an empty line stands between
    any two of them. -/
theorem lines_withLineEnd_returnFeed (h : '\r' ∉ content) :
    lines (withLineEnd ['\r', '\n'] content) = (lines content).intersperse [] := by
  induction content with
  | nil => rfl
  | cons c rest ih =>
    rw [List.mem_cons, not_or] at h
    have hne : lines rest ≠ [] := List.splitOnP_ne_nil isLineEnd rest
    obtain ⟨first, others, hlines⟩ := List.exists_cons_of_ne_nil hne
    by_cases hc : c = '\n'
    · subst hc
      rw [withLineEnd_cons_feed, List.cons_append, List.singleton_append,
        lines_cons_of_isLineEnd rfl, lines_cons_of_isLineEnd rfl, lines_cons_of_isLineEnd rfl,
        ih h.2, hlines]
      rfl
    · have hnot := isLineEnd_of_ne hc (Ne.symm h.1)
      rw [withLineEnd_cons _ hc, lines_cons_of_not_isLineEnd hnot,
        lines_cons_of_not_isLineEnd hnot, ih h.2, hlines]
      cases others <;> rfl

/-- Line feeds that are replaced leave all other characters where they are. -/
theorem eqUpToLineEnds_withLineEnd {lineEnd : Text} (hend : lineEnd ∈ lineEnds)
    (h : '\r' ∉ content) : EqUpToLineEnds content (withLineEnd lineEnd content) := by
  induction content with
  | nil => exact .nil
  | cons c rest ih =>
    rw [List.mem_cons, not_or] at h
    by_cases hc : c = '\n'
    · subst hc
      rw [withLineEnd_cons_feed]
      exact .lineEnd (e := ['\n']) (by simp [lineEnds]) hend (ih h.2)
    · rw [withLineEnd_cons _ hc]
      exact .char (isLineEnd_of_ne hc (Ne.symm h.1)) (ih h.2)

theorem ofText_withLineEnd {lineEnd : Text} (hend : lineEnd ∈ lineEnds) (h : '\r' ∉ content) :
    ofText (withLineEnd lineEnd content) = ofText content := by
  have hdirectives : directives content = directives (withLineEnd lineEnd content) :=
    (eqUpToLineEnds_withLineEnd hend h).directives_eq []
  rw [ofText, ofText, hdirectives]

end TypedTriples.Ruleset
