import TypedTriples.Main
import TypedTriples.Ruleset.Log
import TypedTriples.Proofs.OrderedMap
import TypedTriples.Proofs.Ruleset.Shapes
import TypedTriples.Proofs.Ruleset.Line
import TypedTriples.Proofs.Ruleset.Resolution
import TypedTriples.Proofs.Ruleset.Concatenation
import TypedTriples.Proofs.Ruleset.WellFormed
import TypedTriples.Proofs.Ruleset.Spelling
import TypedTriples.Proofs.Ruleset.Relevance
import TypedTriples.Proofs.Pattern.Cuts
import TypedTriples.Proofs.Pattern.Expression
import TypedTriples.Proofs.Pattern.Decoding
import TypedTriples.Proofs.Literal.Enhanced
import TypedTriples.Proofs.Text.Occurrence
import TypedTriples.Proofs.PrefixTable.Inflation
import TypedTriples.Proofs.PrefixTable.Reference
import TypedTriples.Proofs.PrefixTable.RoundTrip
import TypedTriples.Proofs.Text.Utf8
import TypedTriples.Proofs.Json.Grammar
import TypedTriples.Proofs.Json.Written
import TypedTriples.Proofs.Command.Conversion
import TypedTriples.Proofs.Command.Records
import TypedTriples.Proofs.Command.Emission
import TypedTriples.Proofs.Command.Files
import TypedTriples.Proofs.Command.Run
import TypedTriples.Proofs.Text.Numeral
import TypedTriples.Proofs.Text.Trim
import TypedTriples.Proofs.Text.Longest
import TypedTriples.Proofs.Text.Expression
import TypedTriples.Proofs.Calendar.DayNumber
import TypedTriples.Proofs.Calendar.Written
import TypedTriples.Proofs.Calendar.Reading
import TypedTriples.Proofs.Calendar.Accepted
import TypedTriples.Proofs.Calendar.Instant
import TypedTriples.Proofs.Calendar.Canonical
import TypedTriples.Proofs.Calendar.Exclusion
import TypedTriples.Proofs.Json.Accepted
import TypedTriples.Proofs.Command.Reading
import TypedTriples.Proofs.Json.Pretty
import TypedTriples.Proofs.Ruleset.Dump
import TypedTriples.Proofs.Calendar.Unzoned
import TypedTriples.Proofs.Calendar.Order
import TypedTriples.Proofs.Literal.Moments
import TypedTriples.Proofs.Number.Digits
import TypedTriples.Proofs.Number.Integer
import TypedTriples.Proofs.Number.Magnitude
import TypedTriples.Proofs.Number.Rounding
import TypedTriples.Proofs.Number.Interval
import TypedTriples.Proofs.Number.Grid
import TypedTriples.Proofs.Number.Numeral
import TypedTriples.Proofs.Number.Decimal
import TypedTriples.Proofs.Number.Capture
import TypedTriples.Proofs.Number.Shortest
import TypedTriples.Proofs.Number.Float
import TypedTriples.Proofs.Number.Denotation
import TypedTriples.Proofs.Number.Order
import TypedTriples.Proofs.Number.Precision
import TypedTriples.Proofs.Literal.Integers
import TypedTriples.Proofs.Literal.Floats
import TypedTriples.Proofs.PrefixTable.Extension
import TypedTriples.Proofs.Pattern.Widening
import TypedTriples.Proofs.Ruleset.Places
import TypedTriples.Proofs.Ruleset.Log
import TypedTriples.Proofs.Command.Decoding
