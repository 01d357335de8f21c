import TypedTriples.Text.Basic

/-!
# Kinds

A rules file gives each predicate one of a closed set of kinds. The kind
decides how a value of the predicate is written as a term.

Main definitions:
* `Kind`: the eleven kinds.
* `Kind.token`, `Kind.ofToken`: the word for a kind in a rules file.
* `Kind.datatype?`: the datatype of a kind that has one.
-/

namespace TypedTriples

/-- What the values of a predicate are. -/
inductive Kind where
  /-- Plain text. -/
  | string
  /-- Text in the language of the rules. -/
  | localized
  /-- A whole number, read from the start of the value. -/
  | integer
  /-- A number that is kept as it is spelled. -/
  | number
  /-- A double-precision number, read from the start of the value. -/
  | float
  /-- A truth value. -/
  | boolean
  /-- A moment in time. -/
  | dateTime
  /-- A day. -/
  | date
  /-- An address, kept as text. -/
  | anyUri
  /-- The name of another resource. -/
  | iri
  /-- The kind of every word that names no other kind. -/
  | unknown
  deriving DecidableEq, Repr

namespace Kind

/-- Every kind, in the order of reports. -/
def all : List Kind :=
  [string, localized, integer, number, float, boolean, dateTime, date, anyUri, iri, unknown]

/-- The word for a kind in a rules file. -/
def token : Kind → Text
  | string => "string".toList
  | localized => "localized".toList
  | integer => "integer".toList
  | number => "number".toList
  | float => "float".toList
  | boolean => "boolean".toList
  | dateTime => "datetime".toList
  | date => "date".toList
  | anyUri => "uri".toList
  | iri => "iri".toList
  | unknown => "unknown".toList

/-- The words that a rules file may use for a kind: the tokens of the known
    kinds, and `int` for `integer`. -/
def keywords : List (Text × Kind) :=
  [("string".toList, string), ("localized".toList, localized), ("integer".toList, integer),
   ("int".toList, integer), ("float".toList, float), ("number".toList, number),
   ("boolean".toList, boolean), ("datetime".toList, dateTime), ("date".toList, date),
   ("uri".toList, anyUri), ("iri".toList, iri)]

/-- The kind that a keyword stands for. -/
def ofKeyword? (word : Text) : Option Kind := keywords.lookup word

/-- The kind that a word stands for; a word that is no keyword stands for
    `unknown`. -/
def ofToken (word : Text) : Kind := (ofKeyword? word).getD unknown

/-- The vocabulary that the datatypes belong to. -/
def schema : Text := "http://www.w3.org/2001/XMLSchema#".toList

/-- The datatype of the values of a kind. Localized text has a language
    instead, a resource is no literal, and numbers and unknown values are
    written as plain text. -/
def datatype? : Kind → Option Text
  | string => some (schema ++ "string".toList)
  | integer => some (schema ++ "integer".toList)
  | float => some (schema ++ "float".toList)
  | boolean => some (schema ++ "boolean".toList)
  | dateTime => some (schema ++ "dateTime".toList)
  | date => some (schema ++ "date".toList)
  | anyUri => some (schema ++ "anyURI".toList)
  | localized | number | iri | unknown => none

/-- The datatype of a kind, or the word `unknown` in its place. -/
def datatype (k : Kind) : Text := k.datatype?.getD "unknown".toList

/-- The name of a kind in stored data. -/
def storedName : Kind → Text
  | string => "Str".toList
  | localized => "Localized".toList
  | integer => "Int".toList
  | number => "Number".toList
  | float => "Float".toList
  | boolean => "Bool".toList
  | dateTime => "DateTime".toList
  | date => "Date".toList
  | anyUri => "AnyUri".toList
  | iri => "Iri".toList
  | unknown => "Unknown".toList

/-- The kind with the given name in stored data. -/
def ofStoredName? (name : Text) : Option Kind := all.find? fun k => k.storedName == name

end Kind

end TypedTriples
