import TypedTriples.Json.Reader
import TypedTriples.Json.Writer

/-!
# Triples

A record names a subject and a predicate and gives a value; a statement holds
the three as terms. Both are triples of texts. A record is written in JSON as
an object with three members, in whatever order and among others, or as an
array of the three texts.
-/

namespace TypedTriples

/-- A subject, a predicate and an object. -/
structure Triple where
  subject : Text
  predicate : Text
  object : Text
  deriving DecidableEq, Repr

namespace Triple

/-- A statement as a line, without its end. -/
def line (t : Triple) : Text :=
  t.subject ++ ' ' :: t.predicate ++ ' ' :: t.object ++ [' ', '.']

/-- A triple as a JSON object. -/
def toJson (t : Triple) : Json :=
  .ofMembers
    [("subject", .ofText t.subject), ("predicate", .ofText t.predicate),
     ("object", .ofText t.object)]

/-- The triple that a JSON value stands for. Of an object only the three named
    members count, each of which it must have once; their names and values, and
    the names of the others, must have a text. -/
def ofJson? : Json → Option Triple
  | .array [subject, predicate, object] => do
    return ⟨← subject.text?, ← predicate.text?, ← object.text?⟩
  | .object members => do
    let members ← (Json.object members).members?
    let subject ← Json.only? "subject".toList members
    let predicate ← Json.only? "predicate".toList members
    let object ← Json.only? "object".toList members
    return ⟨← subject.text?, ← predicate.text?, ← object.text?⟩
  | _ => none

/-- The triple that a JSON text stands for. -/
def read? (t : Text) : Option Triple := (Json.read? t).bind ofJson?

end Triple

end TypedTriples
