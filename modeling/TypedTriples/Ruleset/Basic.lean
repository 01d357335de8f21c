import TypedTriples.Kind
import TypedTriples.OrderedMap
import TypedTriples.Pattern.Basic
import TypedTriples.PrefixTable

/-!
# Rulesets

A ruleset says in which language localized text is written, which namespaces
prefixes stand for, what the values of single predicates are, and what the
values of all predicates that match a pattern are by default.

Main definitions:
* `Ruleset`: the four parts.
* `Ruleset.resolve`: the kind that a predicate's values have in effect.
-/

namespace TypedTriples

/-- What is declared of one predicate. -/
structure PredicateRule where
  /-- The compact name of the predicate. -/
  curie : Text
  kind : Kind
  /-- Whether values are in the language of the ruleset. -/
  lang : Bool := false
  /-- Whether a subject may have several values. -/
  many : Bool := false
  deriving DecidableEq, Repr

/-- Whether the values of a predicate are localized by its own rule. -/
def PredicateRule.isLocalized (rule : PredicateRule) : Bool :=
  rule.kind == .localized || rule.lang

/-- What is declared of the predicates that match a pattern. -/
structure DefaultRule where
  kind : Kind
  pattern : Pattern
  deriving DecidableEq

/-- The content of a rules file. -/
structure Ruleset where
  /-- The language of localized text. -/
  language : Text := "en".toList
  /-- The namespaces, in order. -/
  prefixes : PrefixTable := {}
  /-- The rules of single predicates by compact name. -/
  predicates : OrderedMap PredicateRule := {}
  /-- The rules by pattern, in order. -/
  defaults : List DefaultRule := []
  deriving DecidableEq

namespace Ruleset

/-- The ruleset without any declaration. -/
def empty : Ruleset := {}

/-- Whether two rulesets say the same: the order of namespaces and defaults
    matters, that of predicates does not. -/
def same (a b : Ruleset) : Bool :=
  a.language == b.language && a.prefixes == b.prefixes &&
    a.predicates.sameEntries b.predicates && a.defaults == b.defaults

/-! ## Looking up a predicate -/

/-- The rule of a predicate. -/
def rule? (rules : Ruleset) (predicate : Text) : Option PredicateRule :=
  rules.predicates.get? predicate

/-- The declared kind of a predicate. -/
def kind? (rules : Ruleset) (predicate : Text) : Option Kind :=
  (rules.rule? predicate).map (·.kind)

/-- Whether a predicate is declared to have several values. -/
def isMany (rules : Ruleset) (predicate : Text) : Bool :=
  (rules.rule? predicate).any (·.many)

/-- Whether a default of the given kind accepts a predicate. -/
def hasDefault (rules : Ruleset) (kind : Kind) (predicate : Text) : Bool :=
  rules.defaults.any fun rule => rule.kind == kind && rule.pattern.accepts predicate

/-- Whether a predicate is declared with the given kind. -/
def declares (rules : Ruleset) (kind : Kind) (predicate : Text) : Bool :=
  rules.kind? predicate == some kind

/-! ## The kind in effect -/

/-- Whether the values of a predicate are localized, by its own rule or by
    default. -/
def isLocalized (rules : Ruleset) (predicate : Text) : Bool :=
  (rules.rule? predicate).any PredicateRule.isLocalized ||
    rules.hasDefault .localized predicate

/-- Whether the values of a predicate are resources, by its own rule or by
    default. -/
def isIri (rules : Ruleset) (predicate : Text) : Bool :=
  rules.declares .iri predicate || rules.hasDefault .iri predicate

/-- Whether a predicate is declared as plain text or not declared. -/
def isString (rules : Ruleset) (predicate : Text) : Bool :=
  match rules.kind? predicate with
  | some kind => kind == .string
  | none => true

/-- The kind of a predicate's values. Being localized comes before being a
    resource, and both before any other declared kind; values of a predicate
    without a rule are plain text. -/
def resolve (rules : Ruleset) (predicate : Text) : Kind :=
  if rules.isLocalized predicate then .localized
  else if rules.isIri predicate then .iri
  else (rules.kind? predicate).getD .string

end Ruleset

end TypedTriples
