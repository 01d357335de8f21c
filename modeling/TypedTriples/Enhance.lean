import TypedTriples.Calendar.Timestamp
import TypedTriples.Literal
import TypedTriples.Number.Leading
import TypedTriples.Ruleset.Basic
import TypedTriples.Text.Quoted
import TypedTriples.Triple

/-!
# Enhancement

A record becomes a statement: subject and predicate are inflated, and the
object is written as the term that the kind of its predicate asks for. The
only records without a statement are those whose predicate has moments or
dates and whose value is no timestamp.

A batch of records is enhanced one by one, or at once by workers among which it
is divided. Each worker leaves the results of its part, and the parts are put
together in the order of the batch.
-/

namespace TypedTriples

/-- How a batch is divided among workers. -/
inductive Division where
  /-- One worker has all of it. -/
  | whole
  /-- The items before a place are divided further, and so are the others. -/
  | cut (place : Nat) (left right : Division)
  deriving DecidableEq, Repr

namespace Division

/-- A batch of the given length in halves, each divided again, `depth` times in
    all. -/
def halves : Nat → Nat → Division
  | 0, _ => whole
  | depth + 1, length =>
    cut (length / 2) (halves depth (length / 2)) (halves depth (length - length / 2))

/-- The results for the items of a batch, part by part. -/
def map {α β : Type} (f : α → β) : Division → List α → List β
  | whole, items => items.map f
  | cut place left right, items => left.map f (items.take place) ++ right.map f (items.drop place)

end Division

/-- A record whose value should be a timestamp and is none. -/
structure EnhanceFault where
  predicate : Text
  value : Text
  deriving DecidableEq, Repr

/-- The message for a record without a statement. -/
def EnhanceFault.message (fault : EnhanceFault) : Text :=
  "Invalid timestamp ".toList ++ fault.value.quoted ++ " for predicate ".toList ++ fault.predicate

namespace Ruleset

/-- The truth value that a value stands for: only `true` is true. -/
def booleanText (value : Text) : Text := Text.ofBool (value == "true".toList)

/-- A value as the term that a kind asks for. -/
def term (rules : Ruleset) (kind : Kind) (value : Text) : Except InvalidTimestamp Text :=
  match kind with
  | .string | .anyUri | .number | .unknown => .ok (Literal.plain value)
  | .localized => .ok (Literal.inLanguage value rules.language)
  | .integer => .ok (Literal.typed kind (Number.integerText value))
  | .float => .ok (Literal.typed kind (Number.floatText value))
  | .boolean => .ok (Literal.typed kind (booleanText value))
  | .dateTime => (Timestamp.normalize value).map (Literal.typed kind)
  | .date => (Timestamp.normalizeDate value).map (Literal.typed kind)
  | .iri => .ok (rules.prefixes.inflate value)

/-- The statement of a record. -/
def enhance (rules : Ruleset) (record : Triple) : Except EnhanceFault Triple :=
  match rules.term (rules.resolve record.predicate) record.object with
  | .ok object =>
    .ok ⟨rules.prefixes.inflate record.subject, rules.prefixes.inflate record.predicate, object⟩
  | .error _ => .error ⟨record.predicate, record.object⟩

/-- The statements of records, in order. -/
def enhanceAll (rules : Ruleset) (records : List Triple) : List (Except EnhanceFault Triple) :=
  records.map rules.enhance

/-- The statements of records, computed at once by workers. -/
def enhanceAtOnce (rules : Ruleset) (division : Division) (records : List Triple) :
    List (Except EnhanceFault Triple) :=
  division.map rules.enhance records

/-- The statements of records, one by one or at once. -/
def enhanceBatch (rules : Ruleset) (parallel : Bool) (division : Division)
    (records : List Triple) : List (Except EnhanceFault Triple) :=
  if parallel then rules.enhanceAtOnce division records else rules.enhanceAll records

end Ruleset

end TypedTriples
