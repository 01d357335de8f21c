import TypedTriples.Ruleset.Dump
import TypedTriples.Table

/-!
# Reports

Two reports on a ruleset, each as a JSON document or as tables: all that it
declares, and what it says in effect about given predicates.
-/

namespace TypedTriples

/-- The form of a report. -/
inductive ReportFormat where
  | table
  | json
  deriving DecidableEq, Repr

namespace Ruleset

/-! ## All declarations -/

/-- The namespaces. -/
def namespaceTable (rules : Ruleset) : Table where
  header := ["Prefix".toList, "Namespace".toList]
  rows := rules.prefixes.entries.map fun entry => [entry.name, entry.iri]

/-- The rules of single predicates. -/
def predicateTable (rules : Ruleset) : Table where
  header := ["Predicate".toList, "Kind".toList, "Lang".toList, "Many".toList]
  rows := rules.predicates.values.map fun rule =>
    [rule.curie, rule.kind.token, Text.ofBool rule.lang, Text.ofBool rule.many]

/-- The rules by pattern. -/
def defaultTable (rules : Ruleset) : Table where
  header := ["Default".toList, "Pattern".toList]
  rows := rules.defaults.map fun rule => [rule.kind.token, rule.pattern.source]

/-- The report of all declarations. -/
def inspect (rules : Ruleset) : ReportFormat → Text
  | .json => rules.dump.pretty ++ ['\n']
  | .table =>
    "Language: ".toList ++ rules.language ++ '\n' :: rules.namespaceTable.text ++
      rules.predicateTable.text ++ rules.defaultTable.text

/-! ## Given predicates -/

/-- What holds of a predicate, as a JSON object. -/
def resolutionDump (rules : Ruleset) (predicate : Text) : Json :=
  .ofMembers
    [("iri", .ofText (rules.prefixes.inflate predicate)),
     ("kind", .ofText (rules.resolve predicate).token),
     ("many", .bool (rules.isMany predicate)), ("predicate", .ofText predicate)]

/-- What holds of predicates, as a table. -/
def resolutionTable (rules : Ruleset) (predicates : List Text) : Table where
  header := ["Predicate".toList, "IRI".toList, "Kind".toList, "Many".toList]
  rows := predicates.map fun predicate =>
    [predicate, rules.prefixes.inflate predicate, (rules.resolve predicate).token,
     Text.ofBool (rules.isMany predicate)]

/-- The report on given predicates. -/
def resolutions (rules : Ruleset) (predicates : List Text) : ReportFormat → Text
  | .json => (Json.array (predicates.map rules.resolutionDump)).pretty ++ ['\n']
  | .table => (rules.resolutionTable predicates).text

end Ruleset

end TypedTriples
