import Mathlib
import TypedTriples.Command.Run
import TypedTriples.Proofs.Command.Emission
import TypedTriples.Proofs.Command.Files

/-!
# What a conversion run loses

A conversion run that reads a file and writes a file accounts for every record
of its input: it is written or it is reported as skipped. There is one exception.
The output is emptied before the records are read, so that where both paths
lead to one file nothing is left to read, and the run ends well with nothing
written and nothing reported. The rules file is read before the output is
emptied and may be the output without loss.

Main definitions:
* `Outcome.Accounts`: a run that accounts for the records of some lines.

Main results:
* `Ruleset.convert_of_failure_eq_none`: without a failure the policy does not matter.
* `Ruleset.runConvert_of_fault_eq_none`: a run on files that ends well.
* `Invocation.accounts_run_iff`: when such a run accounts for all records.
-/

namespace TypedTriples

/-! ## Specification -/

/-- A run read these records from these lines, wrote the statements of those that
    have one to a file, in order, and reported all others as skipped. -/
structure Outcome.Accounts (outcome : Outcome) (rules : Ruleset) (form : StatementForm)
    (target : Place) (lines : List Octets) (records : List Triple) : Prop where
  holds : List.Forall₂ Records.Holds lines records
  contents : outcome.files.contents target = .ok (rendering form (rules.statements records)).toUtf8
  skipped : outcome.skipped = rules.invalidRecords records
  counted : outcome.written + outcome.skipped.length = lines.length

/-! ## Steps of a run -/

namespace World

variable {world : World} {path : Text}

theorem openInput_eq_ok_iff {input : Option Place} :
    world.openInput (some path) = .ok input ↔
      ∃ source, world.files.open? path = .ok source ∧ input = some source := by
  cases hopen : world.files.open? path with
  | error fault => simp [openInput, hopen]
  | ok source => simp [openInput, hopen, eq_comm]

theorem createOutput_eq_ok_iff {files : Files} {output : Option Place} :
    world.createOutput (some path) = .ok (files, output) ↔
      ∃ target, world.files.create? path = .ok (files, target) ∧ output = some target := by
  cases hcreate : world.files.create? path with
  | error fault => simp [createOutput, hcreate]
  | ok created =>
    obtain ⟨files', target⟩ := created
    simp [createOutput, hcreate, eq_comm, and_comm]

theorem records_eq_ok_iff {source : Place} {records : List Triple} :
    world.records (some source) = .ok records ↔
      ∃ octets, world.files.contents source = .ok octets ∧ Records.read octets = .ok records := by
  cases hcontents : world.files.contents source with
  | error fault => simp [World.records, octets, hcontents]
  | ok found => cases hread : Records.read found <;> simp [World.records, octets, hcontents, hread]

end World

/-! ## Conversions without a failure -/

namespace Ruleset

variable {rules : Ruleset}

theorem length_statements_add_length_invalidRecords (rules : Ruleset) (records : List Triple) :
    (rules.statements records).length + (rules.invalidRecords records).length = records.length := by
  unfold statements invalidRecords
  rw [Conversion.length_statements_add_length_invalidRecords, List.length_map]

theorem convert_of_failure_eq_none {policy : InvalidPolicy} {form : StatementForm} {parallel : Bool}
    {division : Division} {records : List Triple}
    (h : (rules.convert policy form parallel division records).failure = none) :
    rules.convert policy form parallel division records =
      rules.convert .skip form parallel division records := by
  cases policy with
  | skip => rfl
  | fail =>
    rcases forall_isValid_or_exists_first rules records with
      hall | ⟨before, record, after, fault, rfl, hbefore, hfault⟩
    · rw [convert_of_isValid hall, convert_of_isValid hall]
    · rw [convert_fail hbefore hfault] at h
      cases h

/-! ## Runs on files -/

section Files

variable {settings : ConvertSettings} {input output : Text} {world : World}

/-- A run on files in which nothing is wrong with the files: the records are read
    from what the input holds after the output is emptied. -/
theorem runConvert_of_read (hinput : settings.input = some input)
    (houtput : settings.output = some output) {source target : Place} {files : Files}
    {octets : Octets} {records : List Triple} (hopen : world.files.open? input = .ok source)
    (hcreate : world.files.create? output = .ok (files, target))
    (hcontents : files.contents source = .ok octets) (hread : Records.read octets = .ok records) :
    rules.runConvert settings world =
      (rules.convert settings.policy settings.form settings.parallel (divisionOf records)
        records).outcome files (some target) := by
  have hopened : world.openInput settings.input = .ok (some source) := by
    rw [hinput, World.openInput_eq_ok_iff]
    exact ⟨source, hopen, rfl⟩
  have hcreated : world.createOutput settings.output = .ok (files, some target) := by
    rw [houtput, World.createOutput_eq_ok_iff]
    exact ⟨target, hcreate, rfl⟩
  have hrecords : World.records { world with files := files } (some source) = .ok records :=
    World.records_eq_ok_iff.mpr ⟨octets, hcontents, hread⟩
  unfold runConvert
  simp only [hopened, hcreated, hrecords]

theorem read_of_runConvert (hinput : settings.input = some input)
    (houtput : settings.output = some output)
    (h : (rules.runConvert settings world).fault = none) :
    ∃ source files target octets records, world.files.open? input = .ok source ∧
      world.files.create? output = .ok (files, target) ∧ files.contents source = .ok octets ∧
      Records.read octets = .ok records := by
  unfold runConvert at h
  rw [hinput, houtput] at h
  split at h
  · cases h
  · rename_i place hopened
    obtain ⟨source, hopen, rfl⟩ := World.openInput_eq_ok_iff.mp hopened
    split at h
    · cases h
    · rename_i files created hcreated
      obtain ⟨target, hcreate, rfl⟩ := World.createOutput_eq_ok_iff.mp hcreated
      split at h
      · cases h
      · rename_i records hrecords
        obtain ⟨octets, hcontents, hread⟩ := World.records_eq_ok_iff.mp hrecords
        exact ⟨source, files, target, octets, records, hopen, hcreate, hcontents, hread⟩

/-- A run on files that ends well wrote the statements of the records that it
    read and reported the others. -/
theorem runConvert_of_fault_eq_none (hinput : settings.input = some input)
    (houtput : settings.output = some output)
    (h : (rules.runConvert settings world).fault = none) :
    ∃ source files target octets records, world.files.open? input = .ok source ∧
      world.files.create? output = .ok (files, target) ∧ files.contents source = .ok octets ∧
      Records.read octets = .ok records ∧
      rules.runConvert settings world =
        { skipped := rules.invalidRecords records
          written := (rules.statements records).length
          files :=
            files.write target (rendering settings.form (rules.statements records)).toUtf8 } := by
  obtain ⟨source, files, target, octets, records, hopen, hcreate, hcontents, hread⟩ :=
    read_of_runConvert hinput houtput h
  have hrun : rules.runConvert settings world = _ :=
    runConvert_of_read hinput houtput hopen hcreate hcontents hread
  rw [hrun] at h
  have hskip := convert_of_failure_eq_none (Option.map_eq_none_iff.mp h)
  refine ⟨source, files, target, octets, records, hopen, hcreate, hcontents, hread, ?_⟩
  rw [hrun, hskip, convert_skip]
  rfl

end Files

/-- A run that wrote the statements of the records it read, and skipped the rest,
    accounts for the lines that it read them from. -/
theorem accounts_of_read {form : StatementForm} {octets : Octets} {records : List Triple}
    (hread : Records.read octets = .ok records) {target : Place} (htarget : target.isGiven = false)
    (files : Files) :
    Outcome.Accounts
      { skipped := rules.invalidRecords records
        written := (rules.statements records).length
        files := files.write target (rendering form (rules.statements records)).toUtf8 }
      rules form target (Records.recordLines octets) records where
  holds := Records.read_eq_ok_iff.mp hread
  contents := Files.contents_write_self htarget
  skipped := rfl
  counted := by
    rw [length_statements_add_length_invalidRecords]
    exact (Records.read_eq_ok_iff.mp hread).length_eq.symm

/-- A run that leaves the output empty and reports nothing accounts for no lines,
    and for nothing else. -/
theorem accounts_empty_iff {form : StatementForm} {target : Place} (htarget : target.isGiven = false)
    (files : Files) {lines : List Octets} :
    (∃ records,
        Outcome.Accounts { files := files.write target [] } rules form target lines records) ↔
      lines = [] := by
  constructor
  · rintro ⟨records, haccounts⟩
    exact List.length_eq_zero_iff.mp haccounts.counted.symm
  · rintro rfl
    have hnone : Records.read [] = .ok [] := rfl
    exact ⟨[], accounts_of_read hnone htarget files⟩

end Ruleset

namespace Outcome

theorem fault_eq_none_of_exitCode {outcome : Outcome} (h : outcome.exitCode = 0) :
    outcome.fault = none := by
  unfold exitCode at h
  cases hfault : outcome.fault with
  | none => rfl
  | some fault => simp [hfault] at h

end Outcome

namespace Invocation

/-- The rules file of a run that ends well was read, from the files as they were
    before the run. -/
theorem run_of_fault_eq_none {path : Text} {format : ReportFormat} {command : Command}
    {world : World} (h : (Invocation.run ⟨some path, format, command⟩ world).fault = none) :
    ∃ rules, Ruleset.ofFile world.files path = .ok rules ∧
      Invocation.run ⟨some path, format, command⟩ world = rules.run command format world := by
  cases hrules : Ruleset.ofFile world.files path with
  | error fault => simp [run, hrules] at h
  | ok rules => exact ⟨rules, rfl, by simp [run, hrules]⟩

/-- **A conversion run on files accounts for all records, unless it reads the file
    that it writes.** Say that a run ends with status 0, whatever the files, the
    paths, the policy and the form. Then the output holds the statements of the
    records on the lines that the input held before the run, in order, and all other
    records were reported, exactly when the paths lead to two places or there was no
    such line. Where they lead to one place the output is left empty, and nothing
    was written or reported. -/
theorem accounts_run_iff {path input output : Text} {format : ReportFormat}
    {policy : InvalidPolicy} {form : StatementForm} {parallel : Bool} {world : World}
    {outcome : Outcome}
    (hrun : Invocation.run
      ⟨some path, format, .convert ⟨some input, some output, policy, form, parallel⟩⟩ world =
        outcome)
    (hexit : outcome.exitCode = 0) :
    ∃ rules source files target octets,
      Ruleset.ofFile world.files path = .ok rules ∧
      world.files.open? input = .ok source ∧
      world.files.create? output = .ok (files, target) ∧
      world.files.contents source = .ok octets ∧
      ((∃ records, outcome.Accounts rules form target (Records.recordLines octets) records) ↔
        source ≠ target ∨ Records.recordLines octets = []) ∧
      (source = target →
        outcome.files.contents target = .ok [] ∧ outcome.written = 0 ∧ outcome.skipped = []) := by
  have hfault := Outcome.fault_eq_none_of_exitCode hexit
  rw [← hrun] at hfault
  obtain ⟨rules, hrules, hcommand⟩ := run_of_fault_eq_none hfault
  rw [hcommand] at hfault hrun
  obtain ⟨source, files, target, found, records, hopen, hcreate, hfound, hread, houtcome⟩ :=
    Ruleset.runConvert_of_fault_eq_none rfl rfl hfault
  obtain ⟨rfl, hfree⟩ := Files.eq_write_of_create? hcreate
  have htarget := Files.isGiven_eq_false_of_find?_ne hfree
  obtain rfl : _ = outcome := houtcome.symm.trans hrun
  by_cases hsame : source = target
  · -- The input was emptied with the output: no records are read.
    subst hsame
    obtain ⟨octets, hcontents⟩ := Files.exists_contents_of_open? hopen hfree
    rw [Files.contents_write_self htarget] at hfound
    cases hfound
    have hnone : Records.read [] = .ok [] := rfl
    cases hnone.symm.trans hread
    have hlines : (∃ records, Outcome.Accounts _ rules form source _ records) ↔
        Records.recordLines octets = [] :=
      Ruleset.accounts_empty_iff htarget (world.files.write source [])
    refine ⟨rules, source, _, source, octets, hrules, hopen, hcreate, hcontents, ?_, ?_⟩
    · exact hlines.trans (or_iff_right (not_not_intro rfl)).symm
    · exact fun _ => ⟨Files.contents_write_self htarget, rfl, rfl⟩
  · have hcontents := (Files.contents_write_of_ne hsame).mp hfound
    refine ⟨rules, source, _, target, found, hrules, hopen, hcreate, hcontents, ?_, ?_⟩
    · exact iff_of_true ⟨records, Ruleset.accounts_of_read hread htarget _⟩ (Or.inl hsame)
    · exact fun h => absurd h hsame

/-! ## One record -/

/-- A record. -/
def record : Triple := ⟨"a:b".toList, "a:p".toList, "v".toList⟩

/-- The file with the record. -/
def recordFile : Place := ⟨false, [['t']]⟩

/-- What the file holds. -/
def recordText : Text :=
  "\x7b\"subject\":\"a:b\",\"predicate\":\"a:p\",\"object\":\"v\"\x7d\n".toList

/-- The file with the record, and a rules file without a line. -/
def oneRecord : World where
  files := ⟨[(⟨false, [['r']]⟩, .file []), (recordFile, .file recordText.toUtf8)]⟩
  input := []

theorem ofFile_oneRecord : Ruleset.ofFile oneRecord.files ['r'] = .ok (Ruleset.ofText []) := by
  have hread : oneRecord.files.readText ['r'] = .ok [] := rfl
  rw [Ruleset.ofFile, hread]
  rfl

theorem read_recordText : Records.read recordText.toUtf8 = .ok [record] :=
  Records.read_rendering [record]

theorem run_oneRecord (settings : ConvertSettings) :
    Invocation.run ⟨some ['r'], .table, .convert settings⟩ oneRecord =
      (Ruleset.ofText []).runConvert settings oneRecord := by
  simp [run, ofFile_oneRecord, Ruleset.run]

/-- The record is converted into another file, and the run accounts for it. -/
theorem accounts_run_iff_two_files :
    ∃ outcome records, Invocation.run
        ⟨some ['r'], .table, .convert ⟨some ['t'], some ['u'], .skip, .line, false⟩⟩ oneRecord =
          outcome ∧
      outcome.exitCode = 0 ∧
      outcome.Accounts (Ruleset.ofText []) .line ⟨false, [['u']]⟩
        (Records.recordLines recordText.toUtf8) records := by
  have hopen : oneRecord.files.open? ['t'] = .ok recordFile := rfl
  have hcreate : oneRecord.files.create? ['u'] =
      .ok (oneRecord.files.write ⟨false, [['u']]⟩ [], ⟨false, [['u']]⟩) := rfl
  have hcontents : oneRecord.files.contents recordFile = .ok recordText.toUtf8 := rfl
  have hrun := run_oneRecord ⟨some ['t'], some ['u'], .skip, .line, false⟩
  rw [Ruleset.runConvert_of_read rfl rfl hopen hcreate hcontents read_recordText,
    Ruleset.convert_skip] at hrun
  obtain ⟨rules, source, files, target, octets, hrules, hopen', hcreate', hcontents', hiff, -⟩ :=
    accounts_run_iff hrun rfl
  cases ofFile_oneRecord.symm.trans hrules
  cases hopen.symm.trans hopen'
  cases hcreate.symm.trans hcreate'
  cases hcontents.symm.trans hcontents'
  obtain ⟨records, haccounts⟩ := hiff.mpr (Or.inl (by decide))
  exact ⟨_, records, hrun, rfl, haccounts⟩

/-- **A run that reads the file that it writes loses its record** without a word:
    it ends with status 0 and leaves the file empty. -/
theorem run_onto_input :
    ∃ outcome, Invocation.run
        ⟨some ['r'], .table, .convert ⟨some ['t'], some ['t'], .fail, .line, false⟩⟩ oneRecord =
          outcome ∧
      outcome.exitCode = 0 ∧
      oneRecord.files.contents recordFile = .ok recordText.toUtf8 ∧
      outcome.files.contents recordFile = .ok [] ∧
      ¬ ∃ records, outcome.Accounts (Ruleset.ofText []) .line recordFile
        (Records.recordLines recordText.toUtf8) records := by
  have hcreate : oneRecord.files.create? ['t'] =
      .ok (oneRecord.files.write recordFile [], recordFile) := rfl
  have hrun := run_oneRecord ⟨some ['t'], some ['t'], .fail, .line, false⟩
  rw [Ruleset.runConvert_of_read rfl rfl rfl hcreate (Files.contents_write_self rfl) rfl] at hrun
  refine ⟨_, hrun, rfl, rfl, rfl, ?_⟩
  rintro ⟨records, haccounts⟩
  have hlines : (Records.recordLines recordText.toUtf8).length = 1 :=
    (Records.read_eq_ok_iff.mp read_recordText).length_eq
  have hcounted := haccounts.counted
  rw [hlines] at hcounted
  cases hcounted

end Invocation

end TypedTriples
