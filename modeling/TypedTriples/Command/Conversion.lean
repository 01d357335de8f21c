import TypedTriples.Enhance

/-!
# Conversions

A conversion writes the statements of records, one on a line, in one of two
forms. A record without a statement ends the conversion or is skipped with a
warning; records are counted from one. Whether the statements are computed one
by one or at once makes no difference to the result.
-/

namespace TypedTriples

/-- What becomes of a record without a statement. -/
inductive InvalidPolicy where
  /-- The conversion ends there. -/
  | fail
  /-- The record is left out. -/
  | skip
  deriving DecidableEq, Repr

/-- The form of a statement. -/
inductive StatementForm where
  /-- Three terms and a point. -/
  | line
  /-- A JSON object. -/
  | json
  deriving DecidableEq, Repr

/-- A statement in a form, without the line end. -/
def Triple.render (t : Triple) : StatementForm → Text
  | .line => t.line
  | .json => t.toJson.compact

/-- A record without a statement and its number. -/
structure InvalidRecord where
  number : Nat
  fault : EnhanceFault
  deriving DecidableEq, Repr

namespace InvalidRecord

/-- The message where the record ends the conversion. -/
def message (record : InvalidRecord) : Text :=
  "record ".toList ++ Text.ofNat record.number ++ ": ".toList ++ record.fault.message

/-- The warning where the record is skipped. -/
def warning (record : InvalidRecord) : Text :=
  "Skipping record ".toList ++ Text.ofNat record.number ++ ": ".toList ++ record.fault.message

end InvalidRecord

/-- The result of a conversion. -/
structure Conversion where
  /-- The lines written. -/
  output : Text := []
  /-- The number of statements written. -/
  written : Nat := 0
  /-- The records skipped. -/
  skipped : List InvalidRecord := []
  /-- The record that ended the conversion. -/
  failure : Option InvalidRecord := none
  deriving DecidableEq, Repr

namespace Conversion

/-- The conversion with a statement in front. -/
def addStatement (form : StatementForm) (statement : Triple) (c : Conversion) : Conversion :=
  { c with
    output := statement.render form ++ '\n' :: c.output
    written := c.written + 1 }

/-- The conversion with a skipped record in front. -/
def addSkipped (record : InvalidRecord) (c : Conversion) : Conversion :=
  { c with skipped := record :: c.skipped }

/-- The conversion of statements and faults, the first of which has the given
    number. -/
def ofResults (policy : InvalidPolicy) (form : StatementForm) :
    Nat → List (Except EnhanceFault Triple) → Conversion
  | _, [] => {}
  | number, .ok statement :: rest =>
    addStatement form statement (ofResults policy form (number + 1) rest)
  | number, .error fault :: rest =>
    match policy with
    | .fail => { failure := some ⟨number, fault⟩ }
    | .skip => addSkipped ⟨number, fault⟩ (ofResults policy form (number + 1) rest)

end Conversion

/-- The conversion of records under a ruleset. -/
def Ruleset.convert (rules : Ruleset) (policy : InvalidPolicy) (form : StatementForm)
    (parallel : Bool) (division : Division) (records : List Triple) : Conversion :=
  Conversion.ofResults policy form 1 (rules.enhanceBatch parallel division records)

end TypedTriples
