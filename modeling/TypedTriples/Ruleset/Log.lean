import TypedTriples.Ruleset.Document
import TypedTriples.Text.Quoted

/-!
# Events

Reading a rules file and resolving predicates leave events behind: a line
that is passed over, a modifier without a meaning, a pattern that is too
large, the size of the ruleset, the kind of a predicate. Blank lines count as
lines but leave no event.
-/

namespace TypedTriples

/-- How much an event matters. -/
inductive Level where
  | debug
  | info
  deriving DecidableEq, Repr

/-- The name of a level. -/
def Level.name : Level → Text
  | debug => "DEBUG".toList
  | info => "INFO".toList

/-- Something that happened while rules were read or used. -/
inductive Event where
  /-- A line, counted from one, that holds no directive. -/
  | ignoredLine (number : Nat) (line : Text)
  /-- A modifier other than `lang` and `many` on a predicate. -/
  | ignoredModifier (modifier curie : Text)
  /-- A pattern that is too large. -/
  | ignoredPattern (source : Text)
  /-- The end of a rules file, with the size of the ruleset. -/
  | read (language : Text) (prefixes predicates defaults : Nat)
  /-- The kind of a predicate in effect. -/
  | resolved (predicate : Text) (kind : Kind)
  deriving DecidableEq, Repr

namespace Event

/-- The level of an event. -/
def level : Event → Level
  | read .. => .info
  | _ => .debug

/-- The message of an event. -/
def message : Event → Text
  | ignoredLine number line =>
    "Ignoring rules line ".toList ++ Text.ofNat number ++ ": ".toList ++ line.quoted
  | ignoredModifier modifier curie =>
    "Ignoring modifier ".toList ++ modifier.quoted ++ " on ".toList ++ curie
  | ignoredPattern source =>
    "Ignoring default pattern ".toList ++ source.quoted ++
      ": Compiled regex exceeds size limit of 10485760 bytes.".toList
  | read language prefixes predicates defaults =>
    "Parsed rules: language ".toList ++ language ++ ", ".toList ++ Text.ofNat prefixes ++
      " prefixes, ".toList ++ Text.ofNat predicates ++ " predicates, ".toList ++
      Text.ofNat defaults ++ " defaults".toList
  | resolved predicate kind =>
    "Resolved ".toList ++ predicate ++ " as ".toList ++ kind.token

end Event

/-- The events of a directive. -/
def Directive.events : Directive → List Event
  | language _ => []
  | addNamespace _ => []
  | addDefault _ source =>
    match Pattern.ofSource? source with
    | some _ => []
    | none => [.ignoredPattern source]
  | addPredicate curie _ modifiers =>
    (modifiers.filter fun word => word != "lang".toList && word != "many".toList).map fun word =>
      .ignoredModifier word curie

namespace Ruleset

/-- The events of a line with its number. -/
def lineEvents (number : Nat) (line : Text) : List Event :=
  if line.isBlank then []
  else
    match Directive.ofLine? line with
    | some directive => directive.events
    | none => [.ignoredLine number line]

/-- The event at the end of a rules file. -/
def readEvent (rules : Ruleset) : Event :=
  .read rules.language rules.prefixes.entries.length rules.predicates.size rules.defaults.length

/-- The events of reading a rules file, in order. -/
def events (content : Text) : List Event :=
  (numberedLines content).flatMap (fun (number, line) => lineEvents number line) ++
    [readEvent (ofText content)]

/-- The event of resolving a predicate. -/
def resolveEvent (rules : Ruleset) (predicate : Text) : Event :=
  .resolved predicate (rules.resolve predicate)

end Ruleset

end TypedTriples
