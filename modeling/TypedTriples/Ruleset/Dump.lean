import TypedTriples.Json.Reader
import TypedTriples.Json.Writer
import TypedTriples.Ruleset.Basic

/-!
# Rules as data

Prefix tables are stored in JSON and read back; a whole ruleset is shown as a
JSON document. In the document the members of every object are in alphabetical
order.
-/

namespace TypedTriples

namespace Namespace

/-- A namespace as stored data. -/
def toJson (entry : Namespace) : Json :=
  .ofMembers [("prefix", .ofText entry.name), ("iri", .ofText entry.iri)]

/-- A namespace in the document of a ruleset. -/
def dump (entry : Namespace) : Json :=
  .ofMembers [("iri", .ofText entry.iri), ("prefix", .ofText entry.name)]

/-- The namespace of stored data. -/
def ofJson? (value : Json) : Option Namespace := do
  let members ← value.members?
  let name ← (Json.only? "prefix".toList members).bind Json.text?
  let iri ← (Json.only? "iri".toList members).bind Json.text?
  return ⟨name, iri⟩

end Namespace

namespace PrefixTable

/-- A prefix table as stored data. -/
def toJson (table : PrefixTable) : Json :=
  .ofMembers [("namespaces", .array (table.entries.map Namespace.toJson))]

/-- A prefix table in the document of a ruleset. -/
def dump (table : PrefixTable) : Json :=
  .ofMembers [("namespaces", .array (table.entries.map Namespace.dump))]

/-- The prefix table of stored data. -/
def ofJson? (value : Json) : Option PrefixTable := do
  let members ← value.members?
  let items ← (Json.only? "namespaces".toList members).bind Json.items?
  let entries ← items.mapM Namespace.ofJson?
  return ⟨entries⟩

end PrefixTable

/-- The rule of a predicate in the document of a ruleset. -/
def PredicateRule.dump (rule : PredicateRule) : Json :=
  .ofMembers
    [("curie", .ofText rule.curie), ("kind", .ofText rule.kind.token), ("lang", .bool rule.lang),
     ("many", .bool rule.many)]

/-- The rule of a pattern in the document of a ruleset. -/
def DefaultRule.dump (rule : DefaultRule) : Json :=
  .ofMembers [("kind", .ofText rule.kind.token), ("pattern", .ofText rule.pattern.source)]

/-- The document of a ruleset. -/
def Ruleset.dump (rules : Ruleset) : Json :=
  .ofMembers
    [("defaults", .array (rules.defaults.map DefaultRule.dump)),
     ("language", .ofText rules.language),
     ("predicates", .array (rules.predicates.values.map PredicateRule.dump)),
     ("prefixes", rules.prefixes.dump)]

end TypedTriples
