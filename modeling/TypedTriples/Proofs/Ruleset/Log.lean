import Mathlib
import TypedTriples.Ruleset.Log
import TypedTriples.Proofs.Ruleset.Places

/-!
# What is reported of a rules file

Every line is accounted for, in the order of the lines. A line that is not blank and
holds no directive is reported with its number; of a line that declares a predicate
the modifiers without a meaning are; of the others nothing is. The last event sums up
the ruleset. What is blank is said by the white space of Unicode, and what is a
directive by words between spaces and tabs, so that a line of other white space is not
reported, although no directive could be made of it.

Main definitions:
* `Ruleset.Reports`: what is reported of a line.
* `Ruleset.IsSummary`: what is reported of the ruleset.
* `Ruleset.IsLog`: what is reported of a rules file.

Main results:
* `Ruleset.reports_lineEvents`, `Ruleset.isSummary_readEvent`: the two kinds of events.
* `Ruleset.eventsOf_intersperse`: line numbers where every line end counts twice.
* `Ruleset.isLog_events`: the events of a rules file, whatever its line ends.
-/

namespace TypedTriples

/-! ## Specification -/

namespace Directive

/-- A directive about a prefix. -/
def addsNamespace : Directive → Bool
  | addNamespace _ => true
  | _ => false

/-- A directive about the predicates that match a pattern. -/
def addsDefault : Directive → Bool
  | addDefault _ _ => true
  | _ => false

/-- The predicate that a directive declares. -/
def declared? : Directive → Option Text
  | addPredicate curie _ _ => some curie
  | _ => none

end Directive

/-- The event with another number for its line. -/
def Event.renumbered (f : Nat → Nat) : Event → Event
  | ignoredLine number line => ignoredLine (f number) line
  | event => event

namespace Ruleset

open Directive (Spells words)

/-- What is reported of a line with a number. -/
inductive Reports (number : Nat) (line : Text) : List Event → Prop
  | blank (hwhite : ∀ c ∈ line, Text.isWhite c = true) : Reports number line []
  | rejected (hwhite : ∃ c ∈ line, Text.isWhite c = false)
      (hnone : ∀ d, ¬ Spells (words line) d) : Reports number line [.ignoredLine number line]
  | predicate {curie : Text} {kind : Kind} {modifiers : List Text}
      (h : Spells (words line) (.addPredicate curie kind modifiers)) :
      Reports number line
        ((modifiers.filter fun word => word ∉ ["lang".toList, "many".toList]).map fun word =>
          .ignoredModifier word curie)
  | accepted {d : Directive} (h : Spells (words line) d) (hother : d.declared? = none) :
      Reports number line []

/-- The event that sums up the ruleset of a text, and what its counts are of: all lines
    about prefixes, the predicates that are declared, each once, and all lines about
    patterns. -/
structure IsSummary (content : Text) (event : Event) : Prop where
  eq : event = .read (ofText content).language (ofText content).prefixes.entries.length
    (ofText content).predicates.size (ofText content).defaults.length
  level : event.level = .info
  prefixes : (ofText content).prefixes.entries.length =
    (directives content).countP Directive.addsNamespace
  predicates : (ofText content).predicates.size =
    ((directives content).filterMap Directive.declared?).toFinset.card
  defaults : (ofText content).defaults.length = (directives content).countP Directive.addsDefault

/-- What is reported of a text: of each line what there is to report, with the number of
    the line ends before it counted from one, and then the ruleset. -/
def IsLog (content : Text) (log : List Event) : Prop :=
  ∃ (places : List (Text × Text)) (reports : List (List Event)) (summary : Event),
    (∀ before line, (before, line) ∈ places ↔ IsLineAt content before line) ∧
    places.Pairwise (fun p q => p.1.length < q.1.length) ∧
    List.Forall₂ (fun place report => Reports (1 + place.1.countP isLineEnd) place.2 report)
      places reports ∧
    (∀ event ∈ reports.flatten, event.level = .debug) ∧
    log = reports.flatten ++ [summary] ∧ IsSummary content summary

/-- Every pattern of a text is of admissible size. -/
def Compiles (content : Text) : Prop :=
  ∀ kind source, Directive.addDefault kind source ∈ directives content →
    ∃ pattern, Pattern.ofSource? source = some pattern

/-! ## One line -/

variable {content line : Text}

/-- **What is reported of a line is what there is to report.** -/
theorem reports_lineEvents (number : Nat)
    (h : ∀ kind source, Directive.ofLine? line = some (.addDefault kind source) →
      ∃ pattern, Pattern.ofSource? source = some pattern) :
    Reports number line (lineEvents number line) := by
  unfold lineEvents
  by_cases hblank : line.isBlank = true
  · rw [if_pos hblank]
    exact .blank (List.all_eq_true.mp hblank)
  rw [if_neg hblank]
  cases hread : Directive.ofLine? line with
  | none =>
    apply Reports.rejected
    · simpa [Text.isBlank] using hblank
    · intro d hd
      rw [Directive.ofLine?_eq_some_iff.mpr hd] at hread
      cases hread
  | some d =>
    have hspells := Directive.ofLine?_eq_some_iff.mp hread
    cases d with
    | language tag => exact .accepted hspells rfl
    | addNamespace entry => exact .accepted hspells rfl
    | addDefault kind source =>
      obtain ⟨pattern, hpattern⟩ := h kind source hread
      simp only [Directive.events, hpattern]
      exact .accepted hspells rfl
    | addPredicate curie kind modifiers =>
      have hmeaning : ∀ word : Text, (word != "lang".toList && word != "many".toList) =
          decide (word ∉ ["lang".toList, "many".toList]) := by
        intro word
        rw [Bool.eq_iff_iff]
        simp
      simp only [Directive.events, hmeaning]
      exact .predicate hspells

theorem Reports.level_eq {number : Nat} {report : List Event} (h : Reports number line report) :
    ∀ event ∈ report, event.level = .debug := by
  intro event hevent
  cases h with
  | blank => cases hevent
  | accepted => cases hevent
  | rejected =>
    rw [List.mem_singleton.mp hevent]
    rfl
  | predicate =>
    obtain ⟨word, -, rfl⟩ := List.mem_map.mp hevent
    rfl

/-- The number of a line is in its own event alone. -/
theorem map_renumbered_lineEvents (f : Nat → Nat) (number : Nat) (line : Text) :
    (lineEvents number line).map (Event.renumbered f) = lineEvents (f number) line := by
  unfold lineEvents
  by_cases hblank : line.isBlank = true
  · rw [if_pos hblank, if_pos hblank]
    rfl
  rw [if_neg hblank, if_neg hblank]
  cases Directive.ofLine? line with
  | none => rfl
  | some d =>
    cases d with
    | language tag => rfl
    | addNamespace entry => rfl
    | addDefault kind source =>
      simp only [Directive.events]
      cases Pattern.ofSource? source <;> rfl
    | addPredicate curie kind modifiers =>
      simp only [Directive.events, List.map_map]
      rfl

/-! ## The ruleset -/

theorem length_flatMap_namespaces (ds : List Directive) :
    (ds.flatMap Directive.namespaces).length = ds.countP Directive.addsNamespace := by
  induction ds with
  | nil => rfl
  | cons d ds ih =>
    rw [List.flatMap_cons, List.length_append, ih, List.countP_cons]
    cases d <;> simp [Directive.namespaces, Directive.addsNamespace, Nat.add_comm]

theorem map_fst_flatMap_declarations (ds : List Directive) :
    (ds.flatMap Directive.declarations).map Prod.fst = ds.filterMap Directive.declared? := by
  induction ds with
  | nil => rfl
  | cons d ds ih =>
    rw [List.flatMap_cons, List.map_append, ih, List.filterMap_cons]
    cases d <;> rfl

theorem length_flatMap_defaultRules {ds : List Directive}
    (h : ∀ kind source, Directive.addDefault kind source ∈ ds →
      ∃ pattern, Pattern.ofSource? source = some pattern) :
    (ds.flatMap Directive.defaultRules).length = ds.countP Directive.addsDefault := by
  induction ds with
  | nil => rfl
  | cons d ds ih =>
    have hrest := ih fun kind source hmem => h kind source (List.mem_cons_of_mem d hmem)
    rw [List.flatMap_cons, List.length_append, hrest, List.countP_cons]
    cases d with
    | addDefault kind source =>
      obtain ⟨pattern, hpattern⟩ := h kind source List.mem_cons_self
      simp [Directive.defaultRules, Directive.addsDefault, hpattern, Nat.add_comm]
    | language tag => simp [Directive.defaultRules, Directive.addsDefault]
    | addNamespace entry => simp [Directive.defaultRules, Directive.addsDefault]
    | addPredicate curie kind modifiers => simp [Directive.defaultRules, Directive.addsDefault]

/-- **The last event sums up the ruleset.** -/
theorem isSummary_readEvent (h : Compiles content) :
    IsSummary content (readEvent (ofText content)) := by
  refine ⟨rfl, rfl, ?_, ?_, ?_⟩
  · rw [ofText_eq, length_flatMap_namespaces]
  · rw [ofText_eq, OrderedMap.size_insertAll_empty, map_fst_flatMap_declarations]
  · rw [ofText_eq, length_flatMap_defaultRules h]

/-! ## All lines -/

theorem mem_lines_of_mem_numberedLines {number : Nat}
    (h : (number, line) ∈ numberedLines content) : line ∈ lines content := by
  unfold numberedLines at h
  obtain ⟨⟨line', index⟩, hmem, heq⟩ := List.mem_map.mp h
  obtain ⟨-, rfl⟩ := Prod.mk.inj heq
  exact List.fst_mem_of_mem_zipIdx hmem

/-- **The events of a text account for each of its lines.** -/
theorem isLog_of_compiles (h : Compiles content) : IsLog content (events content) := by
  obtain ⟨places, hplaces, hsorted, hnumbers⟩ := exists_places content
  have hreports : ∀ place ∈ places, Reports (1 + place.1.countP isLineEnd) place.2
      (lineEvents (1 + place.1.countP isLineEnd) place.2) := by
    intro place hplace
    have hline : place.2 ∈ lines content := by
      apply mem_lines_of_mem_numberedLines
      rw [hnumbers]
      exact List.mem_map_of_mem hplace
    apply reports_lineEvents
    intro kind source hread
    exact h kind source (List.mem_filterMap.mpr ⟨_, hline, hread⟩)
  refine ⟨places, places.map fun place => lineEvents (1 + place.1.countP isLineEnd) place.2,
    readEvent (ofText content), hplaces, hsorted, ?_, ?_, ?_, isSummary_readEvent h⟩
  · rw [List.forall₂_map_right_iff, List.forall₂_same]
    exact hreports
  · intro event hevent
    rw [List.mem_flatten] at hevent
    obtain ⟨report, hreport, hmem⟩ := hevent
    obtain ⟨place, hplace, rfl⟩ := List.mem_map.mp hreport
    exact (hreports place hplace).level_eq event hmem
  · rw [events, hnumbers, List.flatMap_map, ← List.flatMap_def]

/-! ## Other line ends -/

/-- The events of lines whose numbers are one more than the indices. -/
def eventsOf (entries : List (Text × Nat)) : List Event :=
  entries.flatMap fun entry => lineEvents (entry.2 + 1) entry.1

theorem events_eq (content : Text) :
    events content = eventsOf (lines content).zipIdx ++ [readEvent (ofText content)] := by
  rw [events, numberedLines, List.flatMap_map]
  rfl

/-- **Where an empty line stands between any two lines**, each index is doubled. The
    induction is on the lines; the empty lines have no events of their own. -/
theorem eventsOf_intersperse (list : List Text) (index : Nat) :
    eventsOf ((list.intersperse []).zipIdx (2 * index)) =
      (eventsOf (list.zipIdx index)).map (Event.renumbered fun number => 2 * number - 1) := by
  induction list generalizing index with
  | nil => rfl
  | cons line rest ih =>
    have hline : (lineEvents (index + 1) line).map
        (Event.renumbered fun number => 2 * number - 1) = lineEvents (2 * index + 1) line := by
      rw [map_renumbered_lineEvents]
      congr 1
    have hnext := ih (index + 1)
    cases rest with
    | nil => simpa [eventsOf] using hline.symm
    | cons next rest =>
      have hempty : lineEvents (2 * index + 1 + 1) [] = [] := rfl
      have hindex : 2 * index + 1 + 1 = 2 * (index + 1) := by omega
      rw [List.intersperse_cons_cons, List.zipIdx_cons, List.zipIdx_cons, List.zipIdx_cons]
      unfold eventsOf at hnext ⊢
      rw [List.flatMap_cons, List.flatMap_cons, List.flatMap_cons, List.map_append, hline, hempty,
        List.nil_append, hindex, hnext]

/-- **What is reported of a rules file** whose patterns are all of admissible size
    accounts for its lines one by one. Carriage returns in the place of line feeds change
    nothing, and carriage returns with line feeds the numbers of lines alone. -/
theorem isLog_events (content : Text) :
    (Compiles content → IsLog content (events content)) ∧
      ('\r' ∉ content →
        events (withLineEnd ['\r'] content) = events content ∧
          events (withLineEnd ['\r', '\n'] content) =
            (events content).map (Event.renumbered fun number => 2 * number - 1)) := by
  refine ⟨isLog_of_compiles, fun hreturn => ⟨?_, ?_⟩⟩
  · rw [events_eq, events_eq, lines_withLineEnd_return hreturn,
      ofText_withLineEnd (by simp [lineEnds]) hreturn]
  · rw [events_eq, events_eq, lines_withLineEnd_returnFeed hreturn,
      ofText_withLineEnd (by simp [lineEnds]) hreturn, List.map_append]
    congr 1
    exact eventsOf_intersperse (lines content) 0

/-- A line of a no-break space is neither a directive nor reported, a line of words that
    are none is reported, and modifiers without a meaning are, each time they stand. -/
theorem isLog_events_blank_line :
    '\r' ∉ "ui:a string odd lang odd\n\u00a0\nbogus\n@default iri a*".toList ∧
      IsLog "ui:a string odd lang odd\n\u00a0\nbogus\n@default iri a*".toList
        [.ignoredModifier "odd".toList "ui:a".toList, .ignoredModifier "odd".toList "ui:a".toList,
          .ignoredLine 3 "bogus".toList, .read "en".toList 0 1 1] ∧
      events (withLineEnd ['\r', '\n']
          "ui:a string odd lang odd\n\u00a0\nbogus\n@default iri a*".toList) =
        [.ignoredModifier "odd".toList "ui:a".toList, .ignoredModifier "odd".toList "ui:a".toList,
          .ignoredLine 5 "bogus".toList, .read "en".toList 0 1 1] := by
  have hevents : events "ui:a string odd lang odd\n\u00a0\nbogus\n@default iri a*".toList =
      [.ignoredModifier "odd".toList "ui:a".toList, .ignoredModifier "odd".toList "ui:a".toList,
        .ignoredLine 3 "bogus".toList, .read "en".toList 0 1 1] := by
    cbv
  have hdirectives : directives "ui:a string odd lang odd\n\u00a0\nbogus\n@default iri a*".toList =
      [.addPredicate "ui:a".toList .string ["odd".toList, "lang".toList, "odd".toList],
        .addDefault .iri "a*".toList] := by
    cbv
  have hcompiles : Compiles "ui:a string odd lang odd\n\u00a0\nbogus\n@default iri a*".toList := by
    intro kind source hmem
    rw [hdirectives] at hmem
    obtain ⟨-, rfl⟩ : kind = .iri ∧ source = "a*".toList := by simpa using hmem
    exact Option.isSome_iff_exists.mp (by cbv)
  have hreturn : '\r' ∉ "ui:a string odd lang odd\n\u00a0\nbogus\n@default iri a*".toList := by
    decide
  obtain ⟨hlog, hends⟩ :=
    isLog_events "ui:a string odd lang odd\n\u00a0\nbogus\n@default iri a*".toList
  have hnumbers := (hends hreturn).2
  rw [hevents] at hlog hnumbers
  exact ⟨hreturn, hlog hcompiles, hnumbers⟩

end Ruleset

end TypedTriples
