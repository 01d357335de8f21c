import TypedTriples.Text.Basic

/-!
# JSON values

Values of the JSON data format. An object keeps its members in order, with
repetitions; a number keeps its spelling. The escapes of a string may spell
half of a surrogate pair, which is no character: such a string is well formed
but has no text.
-/

namespace TypedTriples

/-- A JSON value. -/
inductive Json where
  | null
  | bool (value : Bool)
  /-- A number as it is spelled. -/
  | number (spelling : Text)
  /-- A string with its text, if it has one. -/
  | string (text : Option Text)
  | array (items : List Json)
  /-- Members in order; a name, too, is a string. -/
  | object (members : List (Option Text × Json))
  deriving Repr

namespace Json

/-- The string with the given text. -/
def ofText (t : Text) : Json := .string (some t)

/-- An object with the given names and values. -/
def ofMembers (members : List (String × Json)) : Json :=
  .object (members.map fun (name, value) => (some name.toList, value))

/-- The text of a string that has one. -/
def text? : Json → Option Text
  | string text => text
  | _ => none

/-- The truth value of a literal. -/
def bool? : Json → Option Bool
  | bool value => some value
  | _ => none

/-- The items of an array. -/
def items? : Json → Option (List Json)
  | array items => some items
  | _ => none

/-- The members of an object whose names all have a text. -/
def members? : Json → Option (List (Text × Json))
  | object members => members.mapM fun (name, value) => name.map fun name => (name, value)
  | _ => none

/-- The value of the one member with the given name; none if there is no such
    member or more than one. -/
def only? (name : Text) (members : List (Text × Json)) : Option Json :=
  match members.filter fun member => member.1 == name with
  | [member] => some member.2
  | _ => none

end Json

end TypedTriples
