import TypedTriples.Json.Basic

/-!
# Writing JSON

Two written forms of a value: `compact` on one line without blanks, and
`pretty` with one member or item a line and two spaces of indentation for each
level. In strings only the quote, the backslash and the controls below the
space are escaped.
-/

namespace TypedTriples.Json

/-- The digit of a number below 16, lower case. -/
def hexDigit (n : Nat) : Char := Nat.digitChar n

/-- How a character is written in a string. -/
def escapeChar (c : Char) : Text :=
  if c == '"' then ['\\', '"']
  else if c == '\\' then ['\\', '\\']
  else if c == '\x08' then ['\\', 'b']
  else if c == '\t' then ['\\', 't']
  else if c == '\n' then ['\\', 'n']
  else if c == '\x0c' then ['\\', 'f']
  else if c == '\r' then ['\\', 'r']
  else if c.toNat < 0x20 then
    ['\\', 'u', '0', '0', hexDigit (c.toNat / 16), hexDigit (c.toNat % 16)]
  else [c]

/-- A string with its text; a string without a text is half a surrogate
    pair. -/
def writeString : Option Text → Text
  | some t => '"' :: t.flatMap escapeChar ++ ['"']
  | none => "\"\\ud800\"".toList

/-- The word for a truth value. -/
def writeBool (value : Bool) : Text := Text.ofBool value

mutual

/-- A value on one line. -/
def compact : Json → Text
  | null => "null".toList
  | bool value => writeBool value
  | number spelling => spelling
  | string text => writeString text
  | array items => '[' :: List.intercalate [','] (compactItems items) ++ [']']
  | object members => '\x7b' :: List.intercalate [','] (compactMembers members) ++ ['\x7d']

/-- The items of an array, each on one line. -/
def compactItems : List Json → List Text
  | [] => []
  | item :: items => item.compact :: compactItems items

/-- The members of an object, each on one line. -/
def compactMembers : List (Option Text × Json) → List Text
  | [] => []
  | (name, value) :: members =>
    (writeString name ++ ':' :: value.compact) :: compactMembers members

end

/-- The start of a line at a level. -/
def indent (level : Nat) : Text := List.replicate (2 * level) ' '

/-- Lines at the level below the given one between two brackets; nothing stands
    between the brackets when there are none. -/
def block (level : Nat) (left right : Char) : List Text → Text
  | [] => [left, right]
  | lines =>
    left :: '\n' :: List.intercalate [',', '\n'] (lines.map (indent (level + 1) ++ ·)) ++
      '\n' :: indent level ++ [right]

mutual

/-- A value over several lines. -/
def prettyAt (level : Nat) : Json → Text
  | null => "null".toList
  | bool value => writeBool value
  | number spelling => spelling
  | string text => writeString text
  | array items => block level '[' ']' (prettyItems (level + 1) items)
  | object members => block level '\x7b' '\x7d' (prettyMembers (level + 1) members)

/-- The items of an array, each over several lines. -/
def prettyItems (level : Nat) : List Json → List Text
  | [] => []
  | item :: items => item.prettyAt level :: prettyItems level items

/-- The members of an object, each over several lines. -/
def prettyMembers (level : Nat) : List (Option Text × Json) → List Text
  | [] => []
  | (name, value) :: members =>
    (writeString name ++ ':' :: ' ' :: value.prettyAt level) :: prettyMembers level members

end

/-- A value over several lines, from the left margin. -/
def pretty (value : Json) : Text := value.prettyAt 0

end TypedTriples.Json
