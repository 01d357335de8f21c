import Mathlib
import TypedTriples.Proofs.Command.Run
import TypedTriples.Proofs.Json.Accepted

/-!
# Streams are read whole or not at all

A stream is cut into lines at the line feeds. If every line is blank or holds a
record, the records are read in order; otherwise the first line that does neither
decides what is reported, by its number among all lines, and a conversion writes
nothing. Blank lines put in between change that number and nothing else.

Main definitions:
* `Records.IsCut`: the lines of a stream.
* `Records.Sound`, `Records.Spoils`: lines that can be read, and what is reported of
  the others.

Main results:
* `Records.isCut_lines`: the lines that are read are those of the stream.
* `Records.ofLines_eq_error`: the first line that cannot be read.
* `Records.read_insert`, `Records.read_append_feed`: blank lines put in between.
* `Records.read_all_or_nothing`: what is read of a stream, and what is converted.
-/

namespace TypedTriples

namespace Records

/-! ## Specification -/

/-- The lines of a stream: each ends with a line feed, and with a carriage return
    in front of it if there is one; the last may end with the stream. -/
inductive IsCut : Octets → List Octets → Prop
  | nil : IsCut [] []
  | last {line : Octets} : line ≠ [] → lineFeed ∉ line → IsCut line [line]
  | feed {line rest : Octets} {lines : List Octets} : lineFeed ∉ line →
      line.getLast? ≠ some carriageReturn → IsCut rest lines →
      IsCut (line ++ lineFeed :: rest) (line :: lines)
  | returnFeed {line rest : Octets} {lines : List Octets} : lineFeed ∉ line → IsCut rest lines →
      IsCut (line ++ carriageReturn :: lineFeed :: rest) (line :: lines)

/-- A line that can be read: it is UTF-8, and blank or a record. -/
inductive Sound : Octets → Prop
  | blank {text : Text} : text.isBlank = true → Sound text.toUtf8
  | record {text : Text} {record : Triple} : Triple.read? text = some record → Sound text.toUtf8

/-- What is reported of a line with a number that cannot be read. -/
inductive Spoils (number : Nat) : Octets → Fault → Text → Prop
  | notText {line : Octets} : (∀ text : Text, line ≠ text.toUtf8) →
      Spoils number line (.unreadable .notText) "stream did not contain valid UTF-8".toList
  | noRecord {text : Text} : text.isBlank = false → Triple.read? text = none →
      Spoils number text.toUtf8 (.invalidRecord number)
        ("invalid triple record on line ".toList ++ Text.ofNat number)

/-- A part of a stream behind which a line starts. -/
def EndsLine (stream : Octets) : Prop := ∀ last ∈ stream.getLast?, last = lineFeed

/-- The fault after lines are put in behind the line with a number. -/
def Fault.moved (place count : Nat) : Fault → Fault
  | invalidRecord number => invalidRecord (if place < number then number + count else number)
  | unreadable fault => unreadable fault

/-! ## Lines -/

/-- A stream is its first line with the line feed and a shorter stream, or has no
    line feed. -/
theorem feed_induction {motive : Octets → Prop} (hlast : ∀ line, lineFeed ∉ line → motive line)
    (hfeed : ∀ line rest, lineFeed ∉ line → motive rest → motive (line ++ lineFeed :: rest))
    (stream : Octets) : motive stream := by
  induction hlength : stream.length using Nat.strong_induction_on generalizing stream with
  | _ length ih =>
    by_cases hmem : lineFeed ∈ stream
    · obtain ⟨line, rest, rfl, hline⟩ := List.eq_append_cons_of_mem hmem
      refine hfeed line rest hline (ih rest.length ?_ rest rfl)
      simp at hlength
      omega
    · exact hlast stream hmem

theorem splitOn_of_not_mem {line : Octets} (h : lineFeed ∉ line) :
    line.splitOn lineFeed = [line] := by
  refine List.splitOnP_eq_singleton fun b hb => ?_
  rw [beq_eq_false_iff_ne]
  rintro rfl
  exact h hb

theorem lines_last {line : Octets} (hne : line ≠ []) (h : lineFeed ∉ line) :
    lines line = [line] := by
  unfold lines
  rw [splitOn_of_not_mem h]
  simp [hne]

theorem lines_feed {line : Octets} (h : lineFeed ∉ line) (rest : Octets) :
    lines (line ++ lineFeed :: rest) = dropReturn line :: lines rest := by
  have hcut : (line ++ lineFeed :: rest).splitOn lineFeed = [line] ++ rest.splitOn lineFeed := by
    rw [← splitOn_of_not_mem h]
    exact List.splitOnP_append_cons _ _ (beq_self_eq_true lineFeed)
  unfold lines
  rw [hcut]
  rcases List.eq_nil_or_concat (rest.splitOn lineFeed) with hnil | ⟨ended, last, hended⟩
  · exact absurd hnil (List.splitOnP_ne_nil _ _)
  · rw [hended]
    simp

/-- **The lines that are read are those of the stream.** -/
theorem isCut_lines (stream : Octets) : IsCut stream (lines stream) := by
  induction stream using feed_induction with
  | hlast line hline =>
    by_cases hne : line = []
    · rw [hne]
      exact .nil
    · rw [lines_last hne hline]
      exact .last hne hline
  | hfeed line rest hline ih =>
    rw [lines_feed hline]
    unfold dropReturn
    split
    · rename_i hreturn
      obtain ⟨start, rfl⟩ := List.getLast?_eq_some_iff.mp hreturn
      rw [List.dropLast_concat, List.append_assoc]
      exact .returnFeed (fun hmem => hline (List.mem_append_left _ hmem)) ih
    · rename_i hreturn
      exact .feed hline hreturn ih

/-- Lines do not reach across a line feed. -/
theorem lines_append {before : Octets} (h : EndsLine before) (after : Octets) :
    lines (before ++ after) = lines before ++ lines after := by
  induction before using feed_induction with
  | hlast line hline =>
    by_cases hne : line = []
    · rw [hne]
      rfl
    · have hlast := h _ (List.getLast?_eq_some_getLast hne)
      exact absurd (hlast ▸ List.getLast_mem hne) hline
  | hfeed line rest hline ih =>
    have hrest : EndsLine rest := by
      intro last hlast
      refine h last ?_
      rw [List.getLast?_append_of_ne_nil _ (List.cons_ne_nil _ _), List.getLast?_cons, hlast]
      rfl
    rw [List.append_assoc, List.cons_append, lines_feed hline, lines_feed hline, ih hrest,
      List.cons_append]

/-! ## One line -/

variable {number : Nat} {line : Octets}

theorem exists_spoils (h : ¬ Sound line) (number : Nat) :
    ∃ fault, Spoils number line fault (RunFault.records fault).message ∧
      ofLine number line = .error fault := by
  cases htext : Text.ofUtf8? line with
  | none =>
    refine ⟨.unreadable .notText, .notText fun text heq => ?_, by simp [ofLine, htext]⟩
    rw [heq, Text.ofUtf8?_toUtf8] at htext
    cases htext
  | some text =>
    obtain rfl := Text.ofUtf8?_eq_some_iff.mp htext
    have hblank : text.isBlank = false := by
      by_contra hblank
      exact h (.blank (by simpa using hblank))
    have hread : Triple.read? text = none := by
      rw [Option.eq_none_iff_forall_ne_some]
      exact fun record hread => h (.record hread)
    exact ⟨.invalidRecord number, .noRecord hblank hread, by simp [ofLine, htext, hblank, hread]⟩

theorem exists_ofLine_eq_ok (h : Sound line) (number : Nat) :
    ∃ record, ofLine number line = .ok record := by
  cases h with
  | @blank text hblank => exact ⟨none, by simp [ofLine, Text.ofUtf8?_toUtf8, hblank]⟩
  | @record text record hread =>
    cases hblank : text.isBlank with
    | true => exact ⟨none, by simp [ofLine, Text.ofUtf8?_toUtf8, hblank]⟩
    | false => exact ⟨some record, by simp [ofLine, Text.ofUtf8?_toUtf8, hblank, hread]⟩

/-- The number of a line matters for its fault alone. -/
theorem ofLine_moved (number place count : Nat) (line : Octets) :
    ofLine (if place < number then number + count else number) line =
      (ofLine number line).mapError (Fault.moved place count) := by
  unfold ofLine
  cases Text.ofUtf8? line with
  | none => rfl
  | some text =>
    cases hblank : text.isBlank with
    | true => simp [hblank, Except.mapError]
    | false =>
      cases hread : Triple.read? text <;> simp [hblank, hread, Except.mapError, Fault.moved]

/-! ## All lines -/

theorem ofLines_append (number : Nat) (before after : List Octets) :
    ofLines number (before ++ after) =
      (ofLines number before).bind fun records =>
        (ofLines (number + before.length) after).map (records ++ ·) := by
  induction before generalizing number with
  | nil =>
    rw [List.nil_append, List.length_nil, Nat.add_zero, ofLines]
    cases ofLines number after <;> rfl
  | cons line before ih =>
    have hnext : number + (line :: before).length = number + 1 + before.length := by
      rw [List.length_cons]
      omega
    rw [List.cons_append, ofLines, ofLines, ih, hnext]
    cases ofLine number line with
    | error fault => rfl
    | ok record =>
      cases ofLines (number + 1) before with
      | error fault => rfl
      | ok records =>
        cases ofLines (number + 1 + before.length) after <;> simp [Except.bind, Except.map]

/-- **The first line that cannot be read is reported.** -/
theorem ofLines_eq_error {number : Nat} {before : List Octets} {line : Octets} {fault : Fault}
    (hbefore : ∀ other ∈ before, Sound other)
    (h : ofLine (number + before.length) line = .error fault) (after : List Octets) :
    ofLines number (before ++ line :: after) = .error fault := by
  induction before generalizing number with
  | nil =>
    rw [List.length_nil, Nat.add_zero] at h
    rw [List.nil_append, ofLines, h]
  | cons other before ih =>
    obtain ⟨hother, hrest⟩ := List.forall_mem_cons.mp hbefore
    obtain ⟨record, hrecord⟩ := exists_ofLine_eq_ok hother number
    have hnext : number + (other :: before).length = number + 1 + before.length := by
      rw [List.length_cons]
      omega
    rw [hnext] at h
    rw [List.cons_append, ofLines, hrecord, ih hrest h]

theorem forall_sound_or_exists_first (lines : List Octets) :
    (∀ line ∈ lines, Sound line) ∨ ∃ before line after, lines = before ++ line :: after ∧
      (∀ other ∈ before, Sound other) ∧ ¬ Sound line := by
  induction lines with
  | nil => exact .inl (by simp)
  | cons first lines ih =>
    by_cases hfirst : Sound first
    · rcases ih with hall | ⟨before, line, after, rfl, hbefore, hline⟩
      · exact .inl (List.forall_mem_cons.mpr ⟨hfirst, hall⟩)
      · exact .inr ⟨first :: before, line, after, rfl,
          List.forall_mem_cons.mpr ⟨hfirst, hbefore⟩, hline⟩
    · exact .inr ⟨[], first, lines, rfl, by simp, hfirst⟩

theorem exists_ofLines_eq_ok {lines : List Octets} (h : ∀ line ∈ lines, Sound line) (number : Nat) :
    ∃ records, ofLines number lines = .ok records := by
  induction lines generalizing number with
  | nil => exact ⟨[], rfl⟩
  | cons line lines ih =>
    obtain ⟨hline, hrest⟩ := List.forall_mem_cons.mp h
    obtain ⟨record, hrecord⟩ := exists_ofLine_eq_ok hline number
    obtain ⟨records, hrecords⟩ := ih hrest (number + 1)
    exact ⟨record.toList ++ records, by rw [ofLines, hrecord, hrecords]⟩

theorem ofLines_of_isBlankLine {lines : List Octets}
    (h : ∀ line ∈ lines, isBlankLine line = true) (number : Nat) :
    ofLines number lines = .ok [] := by
  induction lines generalizing number with
  | nil => rfl
  | cons line lines ih =>
    obtain ⟨hline, hrest⟩ := List.forall_mem_cons.mp h
    rw [ofLines, ofLine_eq_ok_none_iff.mpr hline, ih hrest]
    rfl

theorem ofLines_moved {number place : Nat} (h : place < number) (count : Nat)
    (lines : List Octets) :
    ofLines (number + count) lines = (ofLines number lines).mapError (Fault.moved place count) := by
  induction lines generalizing number with
  | nil => rfl
  | cons line lines ih =>
    have hline := ofLine_moved number place count line
    have hnext : number + count + 1 = number + 1 + count := by omega
    rw [if_pos h] at hline
    rw [ofLines, ofLines, hline, hnext, ih (by omega)]
    cases ofLine number line with
    | error fault => rfl
    | ok record => cases ofLines (number + 1) lines <;> rfl

theorem ofLines_before {number place : Nat} (count : Nat) {lines : List Octets}
    (h : number + lines.length ≤ place + 1) :
    (ofLines number lines).mapError (Fault.moved place count) = ofLines number lines := by
  induction lines generalizing number with
  | nil => rfl
  | cons line lines ih =>
    rw [List.length_cons] at h
    have hline := ofLine_moved number place count line
    have hrest : (ofLines (number + 1) lines).mapError _ = _ := ih (by omega)
    rw [if_neg (by omega)] at hline
    rw [ofLines]
    cases hread : ofLine number line with
    | error fault =>
      rw [hread] at hline
      exact congrArg Except.error (Except.error.inj hline).symm
    | ok record =>
      cases hreads : ofLines (number + 1) lines with
      | error fault =>
        rw [hreads] at hrest
        exact hrest
      | ok records => rfl

/-! ## Blank lines put in between -/

/-- **Blank lines put in between change the number of a fault behind them, and nothing
    else.** -/
theorem read_insert {before inserted after : Octets} (hbefore : EndsLine before)
    (hinserted : EndsLine inserted ∨ after = [])
    (hblank : ∀ line ∈ lines inserted, isBlankLine line = true) :
    read (before ++ inserted ++ after) =
      (read (before ++ after)).mapError
        (Fault.moved (lines before).length (lines inserted).length) := by
  have hlines : lines (before ++ inserted ++ after) =
      lines before ++ (lines inserted ++ lines after) := by
    rw [List.append_assoc, lines_append hbefore]
    rcases hinserted with hinserted | rfl
    · rw [lines_append hinserted]
    · have hnone : lines [] = [] := rfl
      rw [List.append_nil, hnone, List.append_nil]
  have hfirst : (ofLines 1 (lines before)).mapError
      (Fault.moved (lines before).length (lines inserted).length) = ofLines 1 (lines before) :=
    ofLines_before _ (by omega)
  have hrest : ofLines (1 + (lines before).length) (lines inserted ++ lines after) =
      (ofLines (1 + (lines before).length) (lines after)).mapError
        (Fault.moved (lines before).length (lines inserted).length) := by
    rw [ofLines_append, ofLines_of_isBlankLine hblank, ← ofLines_moved (by omega)]
    cases ofLines (1 + (lines before).length + (lines inserted).length) (lines after) <;> rfl
  unfold read
  rw [hlines, lines_append hbefore, ofLines_append 1, hrest, ofLines_append 1]
  cases hread : ofLines 1 (lines before) with
  | error fault =>
    rw [hread] at hfirst
    exact hfirst.symm
  | ok records => cases ofLines (1 + (lines before).length) (lines after) <;> rfl

theorem ofLine_dropReturn (number : Nat) (line : Octets) :
    ofLine number (dropReturn line) = ofLine number line := by
  unfold dropReturn
  split
  · rename_i hreturn
    obtain ⟨start, rfl⟩ := List.getLast?_eq_some_iff.mp hreturn
    have hoctet : carriageReturn = Text.octet '\r' := rfl
    rw [List.dropLast_concat]
    unfold ofLine
    rw [hoctet, Text.ofUtf8?_append_octet (by decide)]
    cases Text.ofUtf8? start with
    | none => rfl
    | some text =>
      have hread : Triple.read? (text ++ ['\r']) = Triple.read? text := by
        unfold Triple.read?
        rw [Json.read?_append_spaces (by simp [Json.IsSpaces])]
      have hblank : Text.isBlank (text ++ ['\r']) = Text.isBlank text := by
        simp [Text.isBlank, Text.isWhite]
      simp [hread, hblank]
  · rfl

theorem exists_last (stream : Octets) :
    ∃ start last, stream = start ++ last ∧ EndsLine start ∧ lineFeed ∉ last := by
  induction stream using feed_induction with
  | hlast line hline => exact ⟨[], line, rfl, by simp [EndsLine], hline⟩
  | hfeed line rest hline ih =>
    obtain ⟨start, last, rfl, hstart, hlast⟩ := ih
    refine ⟨line ++ lineFeed :: start, last, by simp, fun b hb => ?_, hlast⟩
    rw [List.getLast?_append_of_ne_nil _ (List.cons_ne_nil _ _), List.getLast?_cons] at hb
    cases hfinal : start.getLast? with
    | none =>
      rw [hfinal] at hb
      exact (Option.some.inj hb).symm
    | some final =>
      rw [hfinal] at hb
      obtain rfl := Option.some.inj hb
      exact hstart _ hfinal

/-- **Blank lines at the end change nothing**, also behind a line without a line feed,
    which gets one. -/
theorem read_append_feed {inserted : Octets}
    (hblank : ∀ line ∈ lines inserted, isBlankLine line = true) (stream : Octets) :
    read (stream ++ lineFeed :: inserted) = read stream := by
  obtain ⟨start, last, rfl, hstart, hlast⟩ := exists_last stream
  have hend (number : Nat) : ofLines number (dropReturn last :: lines inserted) =
      ofLines number (lines last) := by
    by_cases hne : last = []
    · have hnone : ofLine number (dropReturn []) = .ok none := ofLine_eq_ok_none_iff.mpr rfl
      rw [hne, ofLines, hnone, ofLines_of_isBlankLine hblank]
      rfl
    · rw [lines_last hne hlast, ofLines, ofLine_dropReturn, ofLines_of_isBlankLine hblank]
      rfl
  unfold read
  rw [List.append_assoc, lines_append hstart, lines_append hstart, lines_feed hlast,
    ofLines_append 1, ofLines_append 1, hend]

end Records

/-! ## Conversions -/

/-- A run that failed and wrote nothing, to the standard output or to its output. -/
structure Outcome.WroteNothing (outcome : Outcome) (created : Option Place) (fault : RunFault) :
    Prop where
  output : outcome.output = []
  contents : ∀ target ∈ created, outcome.files.contents target = .ok []
  written : outcome.written = 0
  skipped : outcome.skipped = []
  fault : outcome.fault = some fault
  exitCode : outcome.exitCode = 1

theorem World.contents_of_createOutput {world : World} {path : Option Text} {files : Files}
    {output : Option Place} (h : world.createOutput path = .ok (files, output)) :
    ∀ target ∈ output, files.contents target = .ok [] := by
  cases path with
  | none =>
    unfold createOutput at h
    obtain ⟨rfl, rfl⟩ := Prod.mk.inj (Except.ok.inj h)
    simp
  | some path =>
    obtain ⟨target, hcreate, rfl⟩ := createOutput_eq_ok_iff.mp h
    obtain ⟨rfl, hfree⟩ := Files.eq_write_of_create? hcreate
    rintro target' ⟨rfl⟩
    exact Files.contents_write_self (Files.isGiven_eq_false_of_find?_ne hfree)

theorem Ruleset.runConvert_of_read_eq_error {rules : Ruleset} {settings : ConvertSettings}
    {world : World} {input output : Option Place} {files : Files} {stream : Octets}
    {fault : Records.Fault} (hinput : world.openInput settings.input = .ok input)
    (houtput : world.createOutput settings.output = .ok (files, output))
    (hstream : World.octets { world with files := files } input = .ok stream)
    (hread : Records.read stream = .error fault) :
    (rules.runConvert settings world).WroteNothing output (.records fault) := by
  have hrecords : World.records { world with files := files } input = .error (.records fault) := by
    unfold World.records
    rw [hstream]
    simp only
    rw [hread]
  have hrun : rules.runConvert settings world =
      { files := files, fault := some (.records fault) } := by
    unfold Ruleset.runConvert
    simp only [hinput, houtput, hrecords]
  rw [hrun]
  exact ⟨rfl, World.contents_of_createOutput houtput, rfl, rfl, rfl, rfl⟩

namespace Records

/-- **A stream is read whole or not at all.** It is cut into lines at the line feeds.
    If all lines can be read, the records of those that are not blank are read, in
    order. Otherwise the first line that cannot be read is reported, as no UTF-8 or as
    no record and then with its number among all lines, and a conversion of the stream
    writes nothing and fails with that report, whatever the rules and the settings.
    Blank lines that are put in between, or at the end, change nothing but the number. -/
theorem read_all_or_nothing (stream : Octets) :
    IsCut stream (lines stream) ∧
      ((∃ records, read stream = .ok records ∧ (∀ line ∈ lines stream, Sound line) ∧
          List.Forall₂ Holds (recordLines stream) records) ∨
        ∃ before line after fault, read stream = .error fault ∧
          lines stream = before ++ line :: after ∧
          (∀ other ∈ before, Sound other) ∧ ¬ Sound line ∧
          Spoils (before.length + 1) line fault (RunFault.records fault).message ∧
          ∀ (rules : Ruleset) (settings : ConvertSettings) (world : World)
            (input output : Option Place) (files : Files),
            world.openInput settings.input = .ok input →
            world.createOutput settings.output = .ok (files, output) →
            World.octets { world with files := files } input = .ok stream →
            (rules.runConvert settings world).WroteNothing output (.records fault)) ∧
      (∀ before inserted after, stream = before ++ after → EndsLine before →
        EndsLine inserted ∨ after = [] → (∀ line ∈ lines inserted, isBlankLine line = true) →
        read (before ++ inserted ++ after) =
          (read stream).mapError
            (Fault.moved (lines before).length (lines inserted).length)) ∧
      ∀ inserted, (∀ line ∈ lines inserted, isBlankLine line = true) →
        read (stream ++ lineFeed :: inserted) = read stream := by
  refine ⟨isCut_lines stream, ?_, ?_, fun inserted hblank => read_append_feed hblank stream⟩
  · rcases forall_sound_or_exists_first (lines stream) with
      hsound | ⟨before, line, after, hlines, hbefore, hline⟩
    · obtain ⟨records, hrecords⟩ := exists_ofLines_eq_ok hsound 1
      exact .inl ⟨records, hrecords, hsound, read_eq_ok_iff.mp hrecords⟩
    · obtain ⟨fault, hspoils, hfault⟩ := exists_spoils hline (before.length + 1)
      have hread : read stream = .error fault := by
        unfold read
        rw [hlines]
        rw [Nat.add_comm] at hfault
        exact ofLines_eq_error hbefore hfault after
      exact .inr ⟨before, line, after, fault, hread, hlines, hbefore, hline, hspoils,
        fun rules settings world input output files hinput houtput hstream =>
          Ruleset.runConvert_of_read_eq_error hinput houtput hstream hread⟩
  · rintro before inserted after rfl hbefore hinserted hblank
    exact read_insert hbefore hinserted hblank

/-- Behind a blank line a record is read as it is in front of it, and a line that is no
    record has a greater number. -/
theorem read_all_or_nothing_behind_blank_line :
    (∃ records, read ([lineFeed] ++ Text.toUtf8 "[\"a\",\"b\",\"c\"]".toList) = .ok records ∧
      (∀ line ∈ lines (Text.toUtf8 "[\"a\",\"b\",\"c\"]".toList), Sound line) ∧
      List.Forall₂ Holds (recordLines (Text.toUtf8 "[\"a\",\"b\",\"c\"]".toList)) records ∧
      records = [⟨['a'], ['b'], ['c']⟩]) ∧
      read (Text.toUtf8 ['x']) = .error (.invalidRecord 1) ∧
      read ([lineFeed] ++ Text.toUtf8 ['x']) = .error (.invalidRecord 2) := by
  have hrecord : read (Text.toUtf8 "[\"a\",\"b\",\"c\"]".toList) = .ok [⟨['a'], ['b'], ['c']⟩] := by
    decide +kernel
  have hfault : read (Text.toUtf8 ['x']) = .error (.invalidRecord 1) := by
    rfl
  have hstart : EndsLine [] := by simp [EndsLine]
  have hends : EndsLine [lineFeed] := by simp [EndsLine]
  have hblank : ∀ line ∈ lines [lineFeed], isBlankLine line = true := by decide
  refine ⟨?_, hfault, ?_⟩
  · generalize Text.toUtf8 "[\"a\",\"b\",\"c\"]".toList = stream at hrecord ⊢
    obtain ⟨-, hread, hinsert, -⟩ := read_all_or_nothing stream
    have hmoved := hinsert [] [lineFeed] stream rfl hstart (.inl hends) hblank
    rw [hrecord] at hmoved
    rcases hread with ⟨records, hrecords, hsound, hholds⟩ | ⟨_, _, _, _, hspoiled, -⟩
    · obtain rfl := Except.ok.inj (hrecord.symm.trans hrecords)
      exact ⟨_, hmoved, hsound, hholds, rfl⟩
    · cases hspoiled.symm.trans hrecord
  · have hmoved := (read_all_or_nothing (Text.toUtf8 ['x'])).2.2.1 [] [lineFeed] _ rfl hstart
      (.inl hends) hblank
    rw [hfault] at hmoved
    exact hmoved

end Records

end TypedTriples
