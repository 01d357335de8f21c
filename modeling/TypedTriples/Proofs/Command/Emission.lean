import Mathlib
import TypedTriples.Proofs.Command.Conversion
import TypedTriples.Proofs.Command.Records
import TypedTriples.Proofs.Json.Written

/-!
# Statements in JSON are records again

A statement in JSON takes one line, whatever stands in its terms: line ends are
escaped with all other controls. The line is not blank, since it starts with a
brace, and the record it holds is the statement. So what a conversion writes in
JSON can be read, and nothing of it is lost.

Main results:
* `Triple.read?_compact`: the record of a statement in JSON.
* `Records.lines_rendering`, `Records.read_rendering`: statements line by line.
* `Ruleset.read_convert_json`: the output of a conversion that skips.
-/

namespace TypedTriples

/-! ## One statement -/

namespace Triple

theorem ofJson?_toJson (t : Triple) : ofJson? t.toJson = some t := rfl

theorem exists_string_of_mem (t : Triple) {member : Option Text × Json}
    (h : member ∈ [(some "subject".toList, Json.ofText t.subject),
      (some "predicate".toList, Json.ofText t.predicate),
      (some "object".toList, Json.ofText t.object)]) : ∃ text, member.2 = .string text := by
  simp only [List.mem_cons, List.not_mem_nil, or_false] at h
  rcases h with rfl | rfl | rfl <;> exact ⟨_, rfl⟩

theorem spells_toJson (t : Triple) : Json.Spells t.toJson t.toJson.compact := by
  refine Json.spells_compact_object fun member hmember => ?_
  obtain ⟨text, htext⟩ := t.exists_string_of_mem hmember
  rw [htext]
  exact Json.spells_writeString text

/-- **The record of a statement in JSON is the statement**, whatever its terms
    hold. -/
theorem read?_compact (t : Triple) : read? t.toJson.compact = some t := by
  have hread : Json.read? ([] ++ t.toJson.compact ++ []) = some t.toJson :=
    Json.read?_of_spells Json.isSpaces_nil t.spells_toJson Json.isSpaces_nil
  rw [List.nil_append, List.append_nil] at hread
  rw [read?, hread, Option.bind_some, ofJson?_toJson]

theorem le_toNat_of_mem_compact (t : Triple) : ∀ c ∈ t.toJson.compact, 0x20 ≤ c.toNat := by
  refine Json.le_toNat_of_mem_compact_object fun member hmember c hc => ?_
  obtain ⟨text, htext⟩ := t.exists_string_of_mem hmember
  rw [htext] at hc
  exact Json.le_toNat_of_mem_writeString hc

/-- A statement in JSON starts with a brace, and so is not blank. -/
theorem isBlank_compact (t : Triple) : Text.isBlank t.toJson.compact = false := rfl

end Triple

/-! ## Many statements -/

namespace Records

theorem holds_render (statement : Triple) :
    Holds (statement.render .json).toUtf8 statement :=
  ⟨statement.render .json, Text.ofUtf8?_toUtf8 _, statement.read?_compact⟩

theorem isBlankLine_render (statement : Triple) :
    isBlankLine (statement.render .json).toUtf8 = false := by
  rw [isBlankLine, Text.ofUtf8?_toUtf8]
  exact statement.isBlank_compact

/-- **Each statement in JSON is one line** of what is written. -/
theorem lines_rendering (statements : List Triple) :
    lines (rendering .json statements).toUtf8 =
      statements.map fun statement => (statement.render .json).toUtf8 := by
  have htexts : rendering .json statements =
      (statements.map (·.render .json)).flatMap fun t => t ++ ['\n'] := by
    rw [rendering, List.flatMap_map]
  have hlines : ∀ t ∈ statements.map (·.render .json), '\n' ∉ t ∧ '\r' ∉ t := by
    intro t ht
    obtain ⟨statement, -, rfl⟩ := List.mem_map.mp ht
    constructor
    · intro hmem
      exact absurd (statement.le_toNat_of_mem_compact _ hmem) (by decide)
    · intro hmem
      exact absurd (statement.le_toNat_of_mem_compact _ hmem) (by decide)
  rw [htexts, lines_toUtf8 hlines, List.map_map]
  rfl

/-- **Statements in JSON are read again**, in order. -/
theorem read_rendering (statements : List Triple) :
    read (rendering .json statements).toUtf8 = .ok statements := by
  have hrecordLines : recordLines (rendering .json statements).toUtf8 =
      statements.map fun statement => (statement.render .json).toUtf8 := by
    rw [recordLines, lines_rendering]
    refine List.filter_eq_self.mpr fun line hline => ?_
    obtain ⟨statement, -, rfl⟩ := List.mem_map.mp hline
    simp [isBlankLine_render]
  rw [read_eq_ok_iff, hrecordLines, List.forall₂_map_left_iff, List.forall₂_same]
  exact fun statement _ => holds_render statement

end Records

/-! ## A conversion -/

/-- **What a conversion writes in JSON is read again.** A conversion that skips
    ends with no failure. Its output has one line for each statement, none of them
    blank, whatever quotes, line ends or other controls stand in the terms; and
    reading it gives the statements of the records that have one, in order. -/
theorem Ruleset.read_convert_json (rules : Ruleset) (parallel : Bool) (division : Division)
    (records : List Triple) :
    (rules.convert .skip .json parallel division records).failure = none ∧
      Records.lines (rules.convert .skip .json parallel division records).output.toUtf8 =
        (rules.statements records).map (fun statement => (statement.render .json).toUtf8) ∧
      (∀ line ∈ Records.lines
          (rules.convert .skip .json parallel division records).output.toUtf8,
        Records.isBlankLine line = false) ∧
      Records.read (rules.convert .skip .json parallel division records).output.toUtf8 =
        .ok (rules.statements records) := by
  rw [convert_skip]
  refine ⟨rfl, Records.lines_rendering _, fun line hline => ?_, Records.read_rendering _⟩
  rw [Records.lines_rendering] at hline
  obtain ⟨statement, -, rfl⟩ := List.mem_map.mp hline
  exact Records.isBlankLine_render statement

end TypedTriples
