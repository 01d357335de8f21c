import Mathlib
import TypedTriples.Command.Records
import TypedTriples.Proofs.Text.Utf8

/-!
# Records line by line

A stream is read exactly when every line that is not blank holds a record, and
what is read are those records in the order of the lines. Lines are counted
only for the message of a fault, so that the number of the first one does not
matter here. Texts without line ends inside are cut apart again after they are
written one on a line.

Main definitions:
* `Records.recordLines`: the lines that are not blank.
* `Records.Holds`: a line that is one record.

Main results:
* `Records.ofLines_eq_ok_iff`, `Records.read_eq_ok_iff`: what is read.
* `Records.lines_toUtf8`: the lines of texts as they are written.
-/

namespace TypedTriples.Records

/-! ## Specification -/

/-- A line of white space only. A line that is not UTF-8 is not one. -/
def isBlankLine (line : Octets) : Bool := (Text.ofUtf8? line).any Text.isBlank

/-- The lines of a stream that are not blank. -/
def recordLines (stream : Octets) : List Octets :=
  (lines stream).filter fun line => !isBlankLine line

/-- A line is a record in JSON. -/
def Holds (line : Octets) (record : Triple) : Prop :=
  ∃ text, Text.ofUtf8? line = some text ∧ Triple.read? text = some record

/-! ## One line -/

theorem ofLine_eq_ok_none_iff {number : Nat} {line : Octets} :
    ofLine number line = .ok none ↔ isBlankLine line = true := by
  unfold ofLine isBlankLine
  cases Text.ofUtf8? line with
  | none => simp
  | some text =>
    cases hblank : text.isBlank with
    | true => simp [hblank]
    | false => cases hread : Triple.read? text <;> simp [hblank, hread]

theorem ofLine_eq_ok_some_iff {number : Nat} {line : Octets} {record : Triple} :
    ofLine number line = .ok (some record) ↔ isBlankLine line = false ∧ Holds line record := by
  unfold ofLine isBlankLine Holds
  cases Text.ofUtf8? line with
  | none => simp
  | some text =>
    cases hblank : text.isBlank with
    | true => simp [hblank]
    | false => cases hread : Triple.read? text <;> simp [hblank, hread]

/-! ## All lines -/

theorem ofLines_cons_eq_ok_iff {number : Nat} {line : Octets} {rest : List Octets}
    {records : List Triple} :
    ofLines number (line :: rest) = .ok records ↔
      ∃ record others, ofLine number line = .ok record ∧ ofLines (number + 1) rest = .ok others ∧
        records = record.toList ++ others := by
  rw [ofLines]
  cases ofLine number line with
  | error fault => simp
  | ok record =>
    cases ofLines (number + 1) rest with
    | error fault => simp
    | ok others => simp [eq_comm]

/-- Lines are read exactly when those that are not blank hold records. The
    induction is on the lines; the number of the first goes up with each. -/
theorem ofLines_eq_ok_iff (number : Nat) {lines : List Octets} {records : List Triple} :
    ofLines number lines = .ok records ↔
      List.Forall₂ Holds (lines.filter fun line => !isBlankLine line) records := by
  induction lines generalizing number records with
  | nil => simp [ofLines, eq_comm]
  | cons line rest ih =>
    rw [ofLines_cons_eq_ok_iff]
    cases hblank : isBlankLine line with
    | true =>
      rw [List.filter_cons_of_neg (by simp [hblank]), ← ih (number + 1)]
      have hline : ofLine number line = .ok none := ofLine_eq_ok_none_iff.mpr hblank
      simp [hline]
    | false =>
      rw [List.filter_cons_of_pos (by simp [hblank]), List.forall₂_cons_left_iff]
      constructor
      · rintro ⟨record, others, hline, hrest, rfl⟩
        cases record with
        | none => simp [ofLine_eq_ok_none_iff.mp hline] at hblank
        | some record =>
          exact ⟨record, others, (ofLine_eq_ok_some_iff.mp hline).2, (ih _).mp hrest, rfl⟩
      · rintro ⟨record, others, hholds, hrest, rfl⟩
        exact ⟨some record, others, ofLine_eq_ok_some_iff.mpr ⟨hblank, hholds⟩,
          (ih _).mpr hrest, rfl⟩

/-- **A stream is read exactly when its lines that are not blank hold records**,
    which are then what is read, in order. -/
theorem read_eq_ok_iff {stream : Octets} {records : List Triple} :
    read stream = .ok records ↔ List.Forall₂ Holds (recordLines stream) records :=
  ofLines_eq_ok_iff 1

/-! ## Lines as they are written -/

theorem dropReturn_of_not_mem {line : Octets} (h : carriageReturn ∉ line) :
    dropReturn line = line := by
  unfold dropReturn
  rw [if_neg fun hlast => h (List.mem_of_getLast? hlast)]

/-- Texts that are ended by line feeds and have none inside are cut apart again. -/
theorem splitOn_toUtf8 {texts : List Text} (h : ∀ t ∈ texts, '\n' ∉ t) :
    (Text.toUtf8 (texts.flatMap fun t => t ++ ['\n'])).splitOn lineFeed =
      texts.map Text.toUtf8 ++ [[]] := by
  induction texts with
  | nil => exact List.splitOn_nil lineFeed
  | cons t texts ih =>
    obtain ⟨hfirst, hrest⟩ := List.forall_mem_cons.mp h
    have hend : Text.toUtf8 ['\n'] = [lineFeed] := rfl
    have hnone : ∀ b ∈ t.toUtf8, (b == lineFeed) = false := by
      intro b hb
      rw [beq_eq_false_iff_ne]
      rintro rfl
      exact hfirst ((Text.mem_toUtf8_iff (by decide)).mp hb)
    have hcut : t.toUtf8.splitOn lineFeed = [t.toUtf8] := List.splitOnP_eq_singleton hnone
    have happend (after : Octets) : (t.toUtf8 ++ lineFeed :: after).splitOn lineFeed =
        t.toUtf8.splitOn lineFeed ++ after.splitOn lineFeed :=
      List.splitOnP_append_cons _ _ (beq_self_eq_true lineFeed)
    rw [List.flatMap_cons, List.append_assoc, Text.toUtf8_append, Text.toUtf8_append, hend,
      List.singleton_append, happend, hcut, ih hrest]
    rfl

/-- **Texts without line ends inside are the lines of the stream they are
    written to**, each with a line feed after it. -/
theorem lines_toUtf8 {texts : List Text} (h : ∀ t ∈ texts, '\n' ∉ t ∧ '\r' ∉ t) :
    lines (Text.toUtf8 (texts.flatMap fun t => t ++ ['\n'])) = texts.map Text.toUtf8 := by
  have hreturn : (texts.map Text.toUtf8).map dropReturn = texts.map Text.toUtf8 := by
    rw [List.map_map]
    refine List.map_congr_left fun t ht => dropReturn_of_not_mem fun hmem => ?_
    exact (h t ht).2 ((Text.mem_toUtf8_iff (by decide)).mp hmem)
  unfold lines
  rw [splitOn_toUtf8 fun t ht => (h t ht).1, List.reverse_append, List.reverse_singleton,
    List.singleton_append]
  simp only [List.map_reverse, List.reverse_reverse, hreturn, List.isEmpty_nil, if_true,
    List.append_nil]

end TypedTriples.Records
