import Mathlib
import TypedTriples.Command.Conversion

/-!
# Two policies for records without a statement

A conversion that skips such records writes the statements of all others, in
order, and warns of each one that it skips under its number. A conversion that
ends at the first of them leaves what was written before it: the output of the
records in front, and so a prefix of what skipping gives. How a batch is divided
among workers cannot be told from the result.

Main definitions:
* `rendering`: statements, one on a line.
* `Ruleset.statements`, `Ruleset.invalidRecords`: what skipping writes and what
  it leaves out.

Main results:
* `Division.map_eq_map`: a divided batch gives the results in order.
* `Conversion.ofResults_skip`, `Conversion.ofResults_append`: the two policies
  on lists of results.
* `Ruleset.convert_policies`: the two policies side by side.
-/

namespace TypedTriples

/-! ## Specification -/

/-- Statements in a form, one on a line. -/
def rendering (form : StatementForm) (statements : List Triple) : Text :=
  statements.flatMap fun statement => statement.render form ++ ['\n']

/-- A result under its number, if it is no statement. -/
def InvalidRecord.ofResult? : Except EnhanceFault Triple × Nat → Option InvalidRecord
  | (.ok _, _) => none
  | (.error fault, number) => some ⟨number, fault⟩

namespace Conversion

/-- The statements among results. -/
def statements (results : List (Except EnhanceFault Triple)) : List Triple :=
  results.filterMap Except.toOption

/-- The invalid records among results, the first of which has the given number. -/
def invalidRecords (number : Nat) (results : List (Except EnhanceFault Triple)) :
    List InvalidRecord :=
  (results.zipIdx number).filterMap InvalidRecord.ofResult?

end Conversion

namespace Ruleset

variable (rules : Ruleset)

/-- The statements of those records that have one. -/
def statements (records : List Triple) : List Triple :=
  Conversion.statements (records.map rules.enhance)

/-- The records without a statement, counted from one. -/
def invalidRecords (records : List Triple) : List InvalidRecord :=
  Conversion.invalidRecords 1 (records.map rules.enhance)

/-- A record that has a statement. -/
def IsValid (record : Triple) : Prop := ∃ statement, rules.enhance record = .ok statement

end Ruleset

/-! ## Batches -/

/-- **The results of a divided batch are in order**, wherever it is divided. -/
theorem Division.map_eq_map {α β : Type} (f : α → β) (division : Division) (items : List α) :
    division.map f items = items.map f := by
  induction division generalizing items with
  | whole => rfl
  | cut place left right hleft hright =>
    rw [Division.map, hleft, hright, ← List.map_append, List.take_append_drop]

theorem Ruleset.enhanceBatch_eq (rules : Ruleset) (parallel : Bool) (division : Division)
    (records : List Triple) :
    rules.enhanceBatch parallel division records = records.map rules.enhance := by
  cases parallel with
  | false => rfl
  | true => exact Division.map_eq_map rules.enhance division records

namespace Conversion

variable {policy : InvalidPolicy} {form : StatementForm}

theorem rendering_append (before after : List Triple) :
    rendering form (before ++ after) = rendering form before ++ rendering form after := by
  unfold rendering
  rw [List.flatMap_append]

@[simp] theorem statements_cons_ok (statement : Triple)
    (results : List (Except EnhanceFault Triple)) :
    statements (.ok statement :: results) = statement :: statements results := rfl

@[simp] theorem statements_cons_error (fault : EnhanceFault)
    (results : List (Except EnhanceFault Triple)) :
    statements (.error fault :: results) = statements results := rfl

@[simp] theorem invalidRecords_cons_ok (number : Nat) (statement : Triple)
    (results : List (Except EnhanceFault Triple)) :
    invalidRecords number (.ok statement :: results) = invalidRecords (number + 1) results := rfl

@[simp] theorem invalidRecords_cons_error (number : Nat) (fault : EnhanceFault)
    (results : List (Except EnhanceFault Triple)) :
    invalidRecords number (.error fault :: results) =
      ⟨number, fault⟩ :: invalidRecords (number + 1) results := rfl

/-! ## Skipping -/

/-- Skipping writes the statements and warns of all other records. The induction
    is on the results; the number of the first goes up with each. -/
theorem ofResults_skip (number : Nat) (results : List (Except EnhanceFault Triple)) :
    ofResults .skip form number results =
      { output := rendering form (statements results)
        written := (statements results).length
        skipped := invalidRecords number results } := by
  induction results generalizing number with
  | nil => rfl
  | cons result results ih =>
    cases result with
    | ok statement =>
      show addStatement form statement (ofResults .skip form (number + 1) results) = _
      rw [ih (number + 1)]
      simp [addStatement, rendering]
    | error fault =>
      show addSkipped ⟨number, fault⟩ (ofResults .skip form (number + 1) results) = _
      rw [ih (number + 1)]
      simp [addSkipped]

theorem length_statements_add_length_invalidRecords (number : Nat)
    (results : List (Except EnhanceFault Triple)) :
    (statements results).length + (invalidRecords number results).length = results.length := by
  induction results generalizing number with
  | nil => rfl
  | cons result results ih =>
    have hrest := ih (number + 1)
    cases result with
    | ok statement =>
      rw [statements_cons_ok, invalidRecords_cons_ok, List.length_cons, List.length_cons]
      omega
    | error fault =>
      rw [statements_cons_error, invalidRecords_cons_error, List.length_cons, List.length_cons]
      omega

/-! ## Ending at a record -/

theorem ofResults_append (number : Nat) (before : List Triple)
    (results : List (Except EnhanceFault Triple)) :
    ofResults policy form number (before.map .ok ++ results) =
      { ofResults policy form (number + before.length) results with
        output := rendering form before ++
          (ofResults policy form (number + before.length) results).output
        written := before.length + (ofResults policy form (number + before.length) results).written
      } := by
  induction before generalizing number with
  | nil => simp [rendering]
  | cons statement before ih =>
    have hnumber : number + (statement :: before).length = number + 1 + before.length := by
      rw [List.length_cons]
      omega
    rw [hnumber, List.map_cons, List.cons_append, ofResults, ih]
    simp [addStatement, rendering]
    omega

theorem ofResults_map_ok (number : Nat) (before : List Triple) :
    ofResults policy form number (before.map .ok) =
      { output := rendering form before, written := before.length } := by
  have hnil : before.map Except.ok ++ [] = (before.map .ok : List (Except EnhanceFault Triple)) :=
    List.append_nil _
  rw [← hnil, ofResults_append]
  simp [ofResults]

theorem ofResults_fail (number : Nat) (before : List Triple) (fault : EnhanceFault)
    (after : List (Except EnhanceFault Triple)) :
    ofResults .fail form number (before.map .ok ++ .error fault :: after) =
      { output := rendering form before
        written := before.length
        failure := some ⟨number + before.length, fault⟩ } := by
  rw [ofResults_append]
  simp [ofResults]

end Conversion

namespace Ruleset

variable {rules : Ruleset}

theorem statements_append (before after : List Triple) :
    rules.statements (before ++ after) = rules.statements before ++ rules.statements after := by
  unfold statements Conversion.statements
  rw [List.map_append, List.filterMap_append]

theorem map_enhance_of_isValid {records : List Triple}
    (h : ∀ record ∈ records, rules.IsValid record) :
    records.map rules.enhance = (rules.statements records).map .ok := by
  induction records with
  | nil => rfl
  | cons record records ih =>
    obtain ⟨statement, hstatement⟩ := h record List.mem_cons_self
    have hrest := ih fun other hother => h other (List.mem_cons_of_mem record hother)
    have hcons : rules.statements (record :: records) = statement :: rules.statements records := by
      unfold statements
      rw [List.map_cons, hstatement, Conversion.statements_cons_ok]
    rw [hcons, List.map_cons, List.map_cons, hstatement, hrest]

theorem length_statements_of_isValid {records : List Triple}
    (h : ∀ record ∈ records, rules.IsValid record) :
    (rules.statements records).length = records.length := by
  have hlength := congrArg List.length (map_enhance_of_isValid h)
  simpa using hlength.symm

theorem forall_isValid_or_exists_first (rules : Ruleset) (records : List Triple) :
    (∀ record ∈ records, rules.IsValid record) ∨
      ∃ before record after fault, records = before ++ record :: after ∧
        (∀ other ∈ before, rules.IsValid other) ∧ rules.enhance record = .error fault := by
  induction records with
  | nil => exact .inl (by simp)
  | cons first records ih =>
    cases hfirst : rules.enhance first with
    | error fault => exact .inr ⟨[], first, records, fault, rfl, by simp, hfirst⟩
    | ok statement =>
      have hvalid : rules.IsValid first := ⟨statement, hfirst⟩
      rcases ih with hall | ⟨before, record, after, fault, rfl, hbefore, hfault⟩
      · exact .inl (List.forall_mem_cons.mpr ⟨hvalid, hall⟩)
      · exact .inr ⟨first :: before, record, after, fault, rfl,
          List.forall_mem_cons.mpr ⟨hvalid, hbefore⟩, hfault⟩

/-- A conversion that skips: the statements of the records that have one, and
    the numbers of those that have none. -/
theorem convert_skip (rules : Ruleset) (form : StatementForm) (parallel : Bool)
    (division : Division) (records : List Triple) :
    rules.convert .skip form parallel division records =
      { output := rendering form (rules.statements records)
        written := (rules.statements records).length
        skipped := rules.invalidRecords records } := by
  unfold convert
  rw [enhanceBatch_eq, Conversion.ofResults_skip]
  rfl

/-- Where all records have statements the policy does not matter. -/
theorem convert_of_isValid {records : List Triple} (h : ∀ record ∈ records, rules.IsValid record)
    (policy : InvalidPolicy) (form : StatementForm) (parallel : Bool) (division : Division) :
    rules.convert policy form parallel division records =
      { output := rendering form (rules.statements records)
        written := records.length } := by
  unfold convert
  rw [enhanceBatch_eq, map_enhance_of_isValid h, Conversion.ofResults_map_ok,
    length_statements_of_isValid h]

/-- A conversion that ends at its first record without a statement. -/
theorem convert_fail {before after : List Triple} {record : Triple} {fault : EnhanceFault}
    (hbefore : ∀ other ∈ before, rules.IsValid other) (hfault : rules.enhance record = .error fault)
    (form : StatementForm) (parallel : Bool) (division : Division) :
    rules.convert .fail form parallel division (before ++ record :: after) =
      { output := rendering form (rules.statements before)
        written := before.length
        failure := some ⟨before.length + 1, fault⟩ } := by
  unfold convert
  rw [enhanceBatch_eq, List.map_append, List.map_cons, hfault, map_enhance_of_isValid hbefore,
    Conversion.ofResults_fail, length_statements_of_isValid hbefore, Nat.add_comm 1]

/-- **The two policies side by side**, for every form and however the batch is
    computed. Skipping writes the statements of all records that have one, in
    order, and warns of all others, so that every record is either written or
    skipped. Failing gives the same where all records have statements; else it
    ends at the first that has none, under its number, with what was written
    before. What failing writes is a prefix of what skipping does. -/
theorem convert_policies (rules : Ruleset) (form : StatementForm) (parallel : Bool)
    (division : Division) (records : List Triple) :
    rules.convert .skip form parallel division records =
        { output := rendering form (rules.statements records)
          written := (rules.statements records).length
          skipped := rules.invalidRecords records
          failure := none } ∧
      (rules.convert .skip form parallel division records).written +
          (rules.convert .skip form parallel division records).skipped.length =
        records.length ∧
      ((∀ record ∈ records, rules.IsValid record) ∧
          rules.convert .fail form parallel division records =
            rules.convert .skip form parallel division records ∨
        ∃ before record after fault, records = before ++ record :: after ∧
          (∀ other ∈ before, rules.IsValid other) ∧ rules.enhance record = .error fault ∧
          rules.convert .fail form parallel division records =
            { output := rendering form (rules.statements before)
              written := before.length
              skipped := []
              failure := some ⟨before.length + 1, fault⟩ } ∧
          InvalidRecord.message ⟨before.length + 1, fault⟩ =
            "record ".toList ++ Text.ofNat (before.length + 1) ++ ": ".toList ++ fault.message) ∧
      (rules.convert .fail form parallel division records).output <+:
        (rules.convert .skip form parallel division records).output := by
  have hskip := convert_skip rules form parallel division records
  have hlength : (rules.statements records).length + (rules.invalidRecords records).length =
      records.length := by
    unfold statements invalidRecords
    rw [Conversion.length_statements_add_length_invalidRecords, List.length_map]
  refine ⟨hskip, by rw [hskip]; exact hlength, ?_⟩
  rcases forall_isValid_or_exists_first rules records with
    hall | ⟨before, record, after, fault, rfl, hbefore, hfault⟩
  · have hsame : rules.convert .fail form parallel division records =
        rules.convert .skip form parallel division records := by
      rw [convert_of_isValid hall, convert_of_isValid hall]
    refine ⟨.inl ⟨hall, hsame⟩, ?_⟩
    rw [hsame]
  · have hfail : rules.convert .fail form parallel division (before ++ record :: after) = _ :=
      convert_fail hbefore hfault form parallel division
    refine ⟨.inr ⟨before, record, after, fault, rfl, hbefore, hfault, hfail, rfl⟩, ?_⟩
    rw [hskip, hfail, statements_append, Conversion.rendering_append]
    exact List.prefix_append _ _

end Ruleset

end TypedTriples
