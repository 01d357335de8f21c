import TypedTriples.Text.Basic

/-!
# Prefix tables

A prefix table names namespaces: a compact name `prefix:suffix` stands for
the namespace of the prefix followed by the suffix. The table is a list; the
first entry that fits decides.

Main definitions:
* `PrefixTable.get?`: the namespace of a prefix.
* `PrefixTable.inflate`: a compact name as a resource between angle brackets.
* `PrefixTable.deflate`: a resource as a compact name.
-/

namespace TypedTriples

/-- A namespace and the prefix that stands for it. -/
structure Namespace where
  name : Text
  iri : Text
  deriving DecidableEq, Repr

/-- Namespaces in the order of their declaration. -/
structure PrefixTable where
  entries : List Namespace := []
  deriving DecidableEq, Repr

namespace PrefixTable

/-- The table with one more entry at its end. -/
def push (table : PrefixTable) (entry : Namespace) : PrefixTable :=
  ⟨table.entries ++ [entry]⟩

/-- The first entry with the given prefix. -/
def get? (table : PrefixTable) (name : Text) : Option Namespace :=
  table.entries.find? fun entry => entry.name == name

/-- The text before the first colon, or all of it when there is none. -/
def prefixOf (value : Text) : Text := value.takeWhile (· != ':')

/-- The value with its first `prefix:` replaced by the namespace, where its
    prefix has one. -/
def expand (table : PrefixTable) (value : Text) : Text :=
  match table.get? (prefixOf value) with
  | some entry => value.replaceFirst (entry.name ++ [':']) entry.iri
  | none => value

/-- Angle brackets around a text that does not start with one. -/
def bracket : Text → Text
  | '<' :: rest => '<' :: rest
  | iri => '<' :: iri ++ ['>']

/-- A compact name as a resource between angle brackets. A name whose prefix
    is not in the table is bracketed as it is. -/
def inflate (table : PrefixTable) (value : Text) : Text := bracket (table.expand value)

/-- The value with the first occurrence of the namespace replaced by its
    prefix and a colon. -/
def compact (entry : Namespace) (value : Text) : Text :=
  value.replaceFirst entry.iri (entry.name ++ [':'])

/-- A resource as a compact name, by the first entry that changes it. -/
def deflate (table : PrefixTable) (value : Text) : Option Text :=
  (table.entries.map fun entry => compact entry value).find? (· != value)

end PrefixTable

end TypedTriples
